import ProgramCheck.Text.CharClass

/-!
# White space

The characters with the property `White_Space`, and the removal of them from the ends of a text.
`trim` keeps the text between its first and its last character that is not white space.
-/

namespace ProgramCheck

namespace CharClass

/-- The characters with the property `White_Space`. -/
def whiteSpace : CharClass := ⟨[
  (0x9, 0xD), (0x20, 0x20), (0x85, 0x85), (0xA0, 0xA0), (0x1680, 0x1680), (0x2000, 0x200A),
  (0x2028, 0x2029), (0x202F, 0x202F), (0x205F, 0x205F), (0x3000, 0x3000)]⟩

end CharClass

/-- Whether a character is white space. -/
def isWhiteSpace (c : Char) : Bool := CharClass.whiteSpace.has c

/-- The text without the characters at its end that satisfy `p`. -/
def dropEndWhile (p : Char → Bool) (cs : List Char) : List Char :=
  (cs.reverse.dropWhile p).reverse

/-- The text without white space at its end. -/
def trimEnd (cs : List Char) : List Char := dropEndWhile isWhiteSpace cs

/-- The text without white space at either end. -/
def trim (cs : List Char) : List Char := trimEnd (cs.dropWhile isWhiteSpace)

@[simp] theorem dropEndWhile_nil (p : Char → Bool) : dropEndWhile p [] = [] := rfl

theorem dropEndWhile_append_takeWhile (p : Char → Bool) (cs : List Char) :
    dropEndWhile p cs ++ (cs.reverse.takeWhile p).reverse = cs := by
  rw [dropEndWhile, ← List.reverse_append, List.takeWhile_append_dropWhile, List.reverse_reverse]

theorem dropEndWhile_append {p : Char → Bool} {xs ys : List Char} (hys : ∀ c ∈ ys, p c = true)
    (hxs : ∀ c ∈ xs.getLast?, p c = false) : dropEndWhile p (xs ++ ys) = xs := by
  have hback : ∀ c ∈ ys.reverse, p c = true := by
    intro c hc
    exact hys c (List.mem_reverse.1 hc)
  have hfront : xs.reverse.dropWhile p = xs.reverse := by
    rw [← List.head?_reverse] at hxs
    cases h : xs.reverse with
    | nil => rfl
    | cons c cs => simp [hxs c (by simp [h])]
  rw [dropEndWhile, List.reverse_append, List.dropWhile_append_of_pos hback, hfront,
    List.reverse_reverse]

theorem getLast?_dropEndWhile (p : Char → Bool) (cs : List Char) :
    ∀ c ∈ (dropEndWhile p cs).getLast?, p c = false := by
  intro c hc
  have hhead := List.head?_dropWhile_not p cs.reverse
  rw [dropEndWhile, List.getLast?_reverse] at hc
  rwa [hc] at hhead

/-- A text without white space at its ends stays as it is. -/
theorem trim_eq_self {cs : List Char} (hhead : ∀ c ∈ cs.head?, isWhiteSpace c = false)
    (hlast : ∀ c ∈ cs.getLast?, isWhiteSpace c = false) : trim cs = cs := by
  have hfront : cs.dropWhile isWhiteSpace = cs := by
    cases cs with
    | nil => rfl
    | cons c cs => simp [hhead c rfl]
  have hback : dropEndWhile isWhiteSpace (cs ++ []) = cs := dropEndWhile_append (by simp) hlast
  rw [trim, hfront, trimEnd]
  simpa using hback

end ProgramCheck
