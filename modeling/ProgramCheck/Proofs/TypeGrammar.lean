import Mathlib.Data.List.DropRight
import ProgramCheck.Proofs.NameFolding
import ProgramCheck.TypeRef

/-!
# The grammar of type references

A type is written as a name, then any amount of white space, then stars; there is no white space
behind a name without stars, as the text is trimmed. `TypeRef.parse` accepts exactly the texts of
this form. It refuses a text that has stars only, a text of this form with more than 255 stars, and
any other text, and it tells these three apart. Everything is read off one cut of the text: in front
of its last stars, and in front of the white space before them.
-/

namespace ProgramCheck

/-- No character of a name is white space. -/
theorem isNameChar_of_whiteSpace {c : Char} (h : isWhiteSpace c = true) : isNameChar c = false := by
  have hapart : ∀ w ∈ CharClass.whiteSpace.intervals, ∀ r ∈ CharClass.alphanumeric.intervals,
      r.2 < w.1 ∨ w.2 < r.1 := by
    decide +kernel
  obtain ⟨w, hw, hbounds⟩ := CharClass.has_iff.1 h
  have halphanumeric : isAlphanumeric c = false := CharClass.has_eq_false (hapart w hw) hbounds
  have hunderscore : c ≠ '_' := by
    rintro rfl
    exact absurd h (by decide)
  simp [isNameChar, halphanumeric, hunderscore]

theorem isWhiteSpace_of_nameChar {c : Char} (h : isNameChar c = true) : isWhiteSpace c = false := by
  refine Bool.eq_false_iff.2 fun hwhite => ?_
  rw [isNameChar_of_whiteSpace hwhite] at h
  cases h

theorem ne_star_of_nameChar {c : Char} (h : isNameChar c = true) : c ≠ '*' := by
  rintro rfl
  exact absurd h (by decide +kernel)

theorem ne_star_of_whiteSpace {c : Char} (h : isWhiteSpace c = true) : c ≠ '*' := by
  rintro rfl
  exact absurd h (by decide)

/-! ### The ends of a text -/

/-- A trimmed text does not begin with white space. -/
theorem head?_trim (cs : List Char) : ∀ c ∈ (trim cs).head?, isWhiteSpace c = false := by
  intro c hc
  obtain ⟨back, hback⟩ : trim cs <+: cs.dropWhile isWhiteSpace := List.rdropWhile_prefix _ _
  have hhead := List.head?_dropWhile_not isWhiteSpace cs
  rwa [← hback, List.head?_append, hc, Option.some_or] at hhead

/-- A trimmed text does not end with white space. -/
theorem getLast?_trim (cs : List Char) : ∀ c ∈ (trim cs).getLast?, isWhiteSpace c = false :=
  getLast?_dropEndWhile isWhiteSpace _

namespace TypeRef

/-! ### Cuts -/

/-- A text cut in front of its last stars and in front of the white space before them. -/
structure Cut (text front gap : List Char) (stars : Nat) : Prop where
  split : text = front ++ gap ++ List.replicate stars '*'
  gap_white : ∀ c ∈ gap, isWhiteSpace c = true
  front_last : ∀ c ∈ front.getLast?, isWhiteSpace c = false
  gap_last : ∀ c ∈ (front ++ gap).getLast?, c ≠ '*'

theorem exists_cut (text : List Char) : ∃ gap stars, Cut text (namePart text) gap stars := by
  have hstars : (text.reverse.takeWhile (· == '*')).reverse =
      List.replicate (text.reverse.takeWhile (· == '*')).length '*' := by
    refine List.eq_replicate_iff.2 ⟨List.length_reverse, fun c hc => ?_⟩
    simpa using List.mem_takeWhile_imp (List.mem_reverse.1 hc)
  have htext := dropEndWhile_append_takeWhile (· == '*') text
  have hfront := dropEndWhile_append_takeWhile isWhiteSpace (dropEndWhile (· == '*') text)
  refine ⟨((dropEndWhile (· == '*') text).reverse.takeWhile isWhiteSpace).reverse,
    (text.reverse.takeWhile (· == '*')).length, ?_, fun c hc => ?_,
    getLast?_dropEndWhile isWhiteSpace _, fun c hc => ?_⟩
  · rw [← hstars, namePart, trimEnd, hfront, htext]
  · exact List.mem_takeWhile_imp (List.mem_reverse.1 hc)
  · rw [namePart, trimEnd, hfront] at hc
    simpa using getLast?_dropEndWhile (· == '*') text c hc

namespace Cut

variable {text front gap : List Char} {stars : Nat} (h : Cut text front gap stars)
include h

theorem namePart_eq : namePart text = front := by
  have hstars : ∀ c ∈ List.replicate stars '*', (c == '*') = true := by simp
  rw [namePart, h.split, dropEndWhile_append hstars fun c hc => by simpa using h.gap_last c hc,
    trimEnd, dropEndWhile_append h.gap_white h.front_last]

theorem count_eq : (text.drop front.length).count '*' = stars := by
  have hgap : gap.count '*' = 0 :=
    List.count_eq_zero.2 fun hmem => ne_star_of_whiteSpace (h.gap_white _ hmem) rfl
  rw [h.split, List.append_assoc, List.drop_left, List.count_append, hgap,
    List.count_replicate_self, Nat.zero_add]

/-- Nothing stands in front of the stars exactly if a text that does not begin with white space has
stars only. -/
theorem front_eq_nil_iff (hhead : ∀ c ∈ text.head?, isWhiteSpace c = false) :
    front = [] ↔ ∀ c ∈ text, c = '*' := by
  constructor
  · rintro rfl
    have hgap : gap = [] := by
      cases hg : gap with
      | nil => rfl
      | cons c cs =>
        have hwhite := h.gap_white c (by rw [hg]; exact List.mem_cons_self)
        rw [hhead c (by rw [h.split, hg]; rfl)] at hwhite
        cases hwhite
    rw [h.split, hgap]
    exact fun c hc => List.eq_of_mem_replicate hc
  · intro hall
    have hnone : (front ++ gap).getLast? = none := by
      refine Option.eq_none_iff_forall_not_mem.2 fun c hc => h.gap_last c hc (hall c ?_)
      rw [h.split]
      exact List.mem_append_left _ (List.mem_of_getLast? hc)
    exact (List.append_eq_nil_iff.1 (List.getLast?_eq_none_iff.1 hnone)).1

end Cut

/-! ### The grammar -/

/-- Whether a text is a name, then white space, then so many stars, without white space if there are
no stars. -/
def Spelled (text name : List Char) (stars : Nat) : Prop :=
  ∃ gap, text = name ++ gap ++ List.replicate stars '*' ∧
    (name ≠ [] ∧ ∀ c ∈ name, isNameChar c = true) ∧
    (∀ c ∈ gap, isWhiteSpace c = true) ∧ (stars = 0 → gap = [])

/-- Why a trimmed text is refused. -/
inductive Refused (text : List Char) : ParseError → Prop
  /-- There is nothing, or there are stars only. -/
  | noName (h : ∀ c ∈ text, c = '*') : Refused text (.noName (String.ofList text))
  /-- The text has the form of a type, with too many stars. -/
  | tooManyIndirections {name : List Char} {stars : Nat} (h : Spelled text name stars)
    (hstars : 255 < stars) : Refused text (.tooManyIndirections (String.ofList text))
  /-- The text does not have the form of a type. What stands in front of its last stars and of the
  white space before them is named. -/
  | badName {front gap : List Char} {stars : Nat} (hstars : ¬ ∀ c ∈ text, c = '*')
    (h : ∀ name k, ¬ Spelled text name k) (cut : Cut text front gap stars) :
    Refused text (.badName (String.ofList front))

section Grammar

variable {text name front gap : List Char} {stars : Nat}

/-- Where a text has the form of a type, it is cut behind the name. -/
theorem Spelled.exists_cut (h : Spelled text name stars) : ∃ gap, Cut text name gap stars := by
  obtain ⟨gap, hsplit, ⟨-, hname⟩, hgap, -⟩ := h
  refine ⟨gap, hsplit, hgap, fun c hc => ?_, fun c hc => ?_⟩
  · exact isWhiteSpace_of_nameChar (hname c (List.mem_of_getLast? hc))
  · rcases List.mem_append.1 (List.mem_of_getLast? hc) with hc | hc
    · exact ne_star_of_nameChar (hname c hc)
    · exact ne_star_of_whiteSpace (hgap c hc)

/-- A text that does not end with white space has the form of a type if it is cut behind a name. -/
theorem Cut.spelled (h : Cut text front gap stars)
    (hlast : ∀ c ∈ text.getLast?, isWhiteSpace c = false) (hne : front ≠ [])
    (hname : ∀ c ∈ front, isNameChar c = true) : Spelled text front stars := by
  refine ⟨gap, h.split, ⟨hne, hname⟩, h.gap_white, ?_⟩
  rintro rfl
  refine List.getLast?_eq_none_iff.1 (Option.eq_none_iff_forall_not_mem.2 fun c hc => ?_)
  have hwhite := h.gap_white c (List.mem_of_getLast? hc)
  have htext : c ∈ text.getLast? := by
    rw [h.split, List.replicate_zero, List.append_nil, List.getLast?_append, hc]
    rfl
  rw [hlast c htext] at hwhite
  cases hwhite

/-- What `parse` makes of a text is known from the cut. -/
theorem parse_of_cut {s : String} (h : Cut (trim s.toList) front gap stars) :
    parse s =
      if front = [] then .error (.noName (String.ofList (trim s.toList)))
      else if !front.all isNameChar then .error (.badName (String.ofList front))
      else if h : stars < 256 then .ok ⟨String.ofList front, ⟨stars, h⟩⟩
      else .error (.tooManyIndirections (String.ofList (trim s.toList))) := by
  simp only [parse, h.namePart_eq, h.count_eq]

theorem parse_eq_ok_iff {s : String} {t : TypeRef} :
    parse s = .ok t ↔ Spelled (trim s.toList) t.base.toList t.level := by
  constructor
  · intro h
    obtain ⟨gap, stars, hcut⟩ := exists_cut (trim s.toList)
    rw [parse_of_cut hcut] at h
    split at h
    · cases h
    · next hne =>
      split at h
      · cases h
      · next hname =>
        split at h
        · next hstars =>
          obtain rfl := Except.ok.inj h
          rw [String.toList_ofList]
          exact hcut.spelled (getLast?_trim _) hne (by simpa using hname)
        · cases h
  · intro h
    obtain ⟨gap, hcut⟩ := h.exists_cut
    obtain ⟨-, -, ⟨hne, hname⟩, -⟩ := h
    have hall : t.base.toList.all isNameChar = true := List.all_eq_true.2 hname
    rw [parse_of_cut hcut, if_neg hne, hall, dif_pos t.level.isLt, String.ofList_toList]
    rfl

/-- A text is refused for a reason of the grammar. -/
theorem refused_of_parse {s : String} {e : ParseError} (h : parse s = .error e) :
    Refused (trim s.toList) e := by
  have hhead := head?_trim s.toList
  obtain ⟨gap, stars, hcut⟩ := exists_cut (trim s.toList)
  rw [parse_of_cut hcut] at h
  split at h
  · next hnil =>
    cases h
    exact .noName ((hcut.front_eq_nil_iff hhead).1 hnil)
  · next hne =>
    split at h
    · next hname =>
      cases h
      refine .badName (fun hall => hne ((hcut.front_eq_nil_iff hhead).2 hall))
        (fun name k hspelled => ?_) hcut
      obtain ⟨gap', hcut'⟩ := hspelled.exists_cut
      obtain ⟨-, -, ⟨-, hchars⟩, -⟩ := hspelled
      rw [hcut'.namePart_eq, List.all_eq_true.2 hchars] at hname
      cases hname
    · next hname =>
      split at h
      · cases h
      · next hstars =>
        cases h
        exact .tooManyIndirections
          (hcut.spelled (getLast?_trim _) hne (by simpa using hname)) (by omega)

theorem parse_of_refused {s : String} {e : ParseError} (h : Refused (trim s.toList) e) :
    parse s = .error e := by
  have hhead := head?_trim s.toList
  cases h with
  | noName hall =>
    obtain ⟨gap, stars, hcut⟩ := exists_cut (trim s.toList)
    rw [parse_of_cut hcut, if_pos ((hcut.front_eq_nil_iff hhead).2 hall)]
  | tooManyIndirections hspelled hstars =>
    obtain ⟨gap, hcut⟩ := hspelled.exists_cut
    obtain ⟨-, -, ⟨hne, hname⟩, -⟩ := hspelled
    rw [parse_of_cut hcut, if_neg hne, List.all_eq_true.2 hname, dif_neg (by omega)]
    rfl
  | @badName front gap stars hstars hspelled hcut =>
    have hne : front ≠ [] := fun hnil => hstars ((hcut.front_eq_nil_iff hhead).1 hnil)
    have hname : front.all isNameChar = false := by
      refine Bool.eq_false_iff.2 fun hall => hspelled front stars ?_
      exact hcut.spelled (getLast?_trim _) hne (List.all_eq_true.1 hall)
    rw [parse_of_cut hcut, if_neg hne, hname]
    rfl

end Grammar

theorem mapError_eq_error_iff {ε ε' α : Type} {x : Except ε α} {f : ε → ε'} {e' : ε'} :
    x.mapError f = .error e' ↔ ∃ e, x = .error e ∧ f e = e' := by
  cases x <;> simp [Except.mapError]

/-- **The grammar of type references.** A text is read as a type exactly if it is, trimmed, the name
of the type with its stars behind it in this form. Otherwise it is refused, for the reason that it
has stars only, or has this form with too many stars, or does not have this form. The words of the
refusal say which it is: they quote the trimmed text, and in the last case only what stands in front
of its last stars and of the white space before them. -/
theorem parse_grammar (s : String) :
    (∀ t : TypeRef, parse s = .ok t ↔ Spelled (trim s.toList) t.base.toList t.level) ∧
    (∀ e : ParseError, parse s = .error e ↔ Refused (trim s.toList) e) ∧
    ∀ message : String, (parse s).mapError ParseError.message = .error message ↔
      ((∀ c ∈ trim s.toList, c = '*') ∧
        message = "invalid type reference '" ++ String.ofList (trim s.toList) ++ "'") ∨
      (∃ name stars, Spelled (trim s.toList) name stars ∧ 255 < stars ∧
        message = "too many indirections in '" ++ String.ofList (trim s.toList) ++ "'") ∨
      ((¬ ∀ c ∈ trim s.toList, c = '*') ∧ (∀ name k, ¬ Spelled (trim s.toList) name k) ∧
        ∃ front gap stars, Cut (trim s.toList) front gap stars ∧
          message = "invalid type name '" ++ String.ofList front ++ "'") := by
  refine ⟨fun _ => parse_eq_ok_iff, fun _ => ⟨refused_of_parse, parse_of_refused⟩,
    fun message => ?_⟩
  rw [mapError_eq_error_iff]
  constructor
  · rintro ⟨e, he, rfl⟩
    cases refused_of_parse he with
    | noName hall => exact .inl ⟨hall, rfl⟩
    | tooManyIndirections hspelled hstars => exact .inr (.inl ⟨_, _, hspelled, hstars, rfl⟩)
    | badName hstars hspelled hcut => exact .inr (.inr ⟨hstars, hspelled, _, _, _, hcut, rfl⟩)
  · rintro (⟨hall, rfl⟩ | ⟨name, stars, hspelled, hstars, rfl⟩ |
      ⟨hstars, hspelled, front, gap, stars, hcut, rfl⟩)
    · exact ⟨_, parse_of_refused (.noName hall), rfl⟩
    · exact ⟨_, parse_of_refused (.tooManyIndirections hspelled hstars), rfl⟩
    · exact ⟨_, parse_of_refused (.badName hstars hspelled hcut), rfl⟩

example : parse " naïve_1 \t** " = .ok ⟨"naïve_1", 2⟩ := by decide +kernel

/-- Only the last stars are taken off a text that does not have the form of a type. -/
example : (parse "i32* *").mapError ParseError.message = .error "invalid type name 'i32*'" := by
  decide +kernel

end TypeRef

end ProgramCheck
