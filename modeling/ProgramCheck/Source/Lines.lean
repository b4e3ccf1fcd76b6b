import ProgramCheck.Position

/-!
# Lines of a text

A text is cut into lines behind each line feed. A line keeps the line feed that ends it, so the
lines joined again are the text, and there is always one more line than there are line feeds.
Offsets into a text count the bytes of its UTF-8 form.
-/

namespace ProgramCheck

/-- The lines of a text, each with the line feed that ends it. -/
def lines : List Char → List (List Char)
  | [] => [[]]
  | c :: cs =>
    if c = '\n' then [c] :: lines cs
    else
      match lines cs with
      | [] => [[c]]
      | line :: rest => (c :: line) :: rest

theorem lines_ne_nil (cs : List Char) : lines cs ≠ [] := by
  cases cs with
  | nil => simp [lines]
  | cons c cs =>
    rw [lines]
    split
    · simp
    · split <;> simp

theorem lines_feed (cs : List Char) : lines ('\n' :: cs) = ['\n'] :: lines cs := by
  rw [lines, if_pos rfl]

theorem lines_cons_of_ne {c : Char} {cs line : List Char} {rest : List (List Char)} (hc : c ≠ '\n')
    (h : lines cs = line :: rest) : lines (c :: cs) = (c :: line) :: rest := by
  rw [lines, if_neg hc, h]

/-- There is one more line than there are line feeds. -/
theorem length_lines (cs : List Char) : (lines cs).length = cs.count '\n' + 1 := by
  induction cs with
  | nil => rfl
  | cons c cs ih =>
    by_cases hc : c = '\n'
    · subst hc
      simp [lines_feed, ih]
    · obtain ⟨line, rest, h⟩ := List.exists_cons_of_ne_nil (lines_ne_nil cs)
      rw [h] at ih
      simpa [lines_cons_of_ne hc h, hc] using ih

/-- Joining the lines of a text gives the text. -/
@[simp] theorem flatten_lines (cs : List Char) : (lines cs).flatten = cs := by
  induction cs with
  | nil => rfl
  | cons c cs ih =>
    rw [lines]
    split
    · simp [ih]
    · split
      · next h => exact absurd h (lines_ne_nil cs)
      · next h => rw [h] at ih; simpa using ih

/-- The number of bytes of a text in UTF-8. -/
def byteLength : List Char → Nat
  | [] => 0
  | c :: cs => c.utf8Size + byteLength cs

@[simp] theorem byteLength_nil : byteLength [] = 0 := rfl

@[simp] theorem byteLength_cons (c : Char) (cs : List Char) :
    byteLength (c :: cs) = c.utf8Size + byteLength cs := rfl

@[simp] theorem byteLength_append (cs ds : List Char) :
    byteLength (cs ++ ds) = byteLength cs + byteLength ds := by
  induction cs with
  | nil => simp
  | cons c cs ih => simp [ih, Nat.add_assoc]

/-- The byte offset at which a line starts, given the lines of the text and its index. -/
def lineStart (ls : List (List Char)) (index : Nat) : Nat := byteLength (ls.take index).flatten

/-- The index of the line that holds a byte offset: the last line that starts at it or before. -/
def lineIndexAt : List (List Char) → Nat → Nat
  | [], _ => 0
  | [_], _ => 0
  | line :: rest, offset =>
    if offset < byteLength line then 0 else lineIndexAt rest (offset - byteLength line) + 1

/-- The number of characters of a line that end at a byte offset into the line or before. -/
def charsBefore : List Char → Nat → Nat
  | [], _ => 0
  | c :: cs, offset =>
    if offset < c.utf8Size then 0 else charsBefore cs (offset - c.utf8Size) + 1

/-- The position of a byte offset in a text, by the line that holds the offset and by the characters
in front of it in the line. -/
def positionAt (text : List Char) (offset : Nat) : Position :=
  let index := lineIndexAt (lines text) offset
  let line := (lines text)[index]?.getD []
  ⟨index + 1, charsBefore line (offset - lineStart (lines text) index) + 1⟩

end ProgramCheck
