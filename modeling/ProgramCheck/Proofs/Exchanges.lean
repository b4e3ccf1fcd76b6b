import Mathlib.Data.List.Induction
import Mathlib.Data.Set.Function
import ProgramCheck.Report

/-!
# Diagnostics that move between two reports

However diagnostics are pushed to two reports and however the reports are emptied into each other,
nothing is lost, nothing is there twice, and nothing comes into the list of the other severity. The
places of two reports are followed through the movements: a diagnostic that is pushed takes a new
place, and a report that is emptied gives each of its places another one on the other side. The two
severities do not meet, so what becomes of the errors can be told without the warnings.
-/

namespace ProgramCheck

/-- The list of a report for the diagnostics of a severity. -/
def Report.listOf (r : Report) : Severity → List Diagnostic
  | .error => r.errors
  | .warning => r.warnings

theorem Report.isEmpty_iff {r : Report} : r.isEmpty = true ↔ r.errors = [] ∧ r.warnings = [] := by
  simp [isEmpty]

/-- The other one of two reports. -/
def Side.other : Side → Side
  | .left => .right
  | .right => .left

theorem Side.eq_other_of_ne {s s' : Side} (h : s' ≠ s) : s' = s.other := by
  cases s <;> cases s' <;> simp_all [Side.other]

theorem Side.other_ne (s : Side) : s.other ≠ s := by
  cases s <;> decide

namespace Exchange

/-! ### One movement -/

/-- The list for a severity on a side. -/
def listOf (x : Exchange) (s : Side) (v : Severity) : List Diagnostic := (x.side s).listOf v

/-- A diagnostic that is pushed comes to the end of one list. -/
theorem listOf_push (x : Exchange) (s s' : Side) (d : Diagnostic) (v : Severity) :
    (x.apply (.push s d)).listOf s' v =
      if s' = s ∧ v = d.severity then x.listOf s' v ++ [d] else x.listOf s' v := by
  cases s <;> cases s' <;> cases v <;> cases h : d.severity <;>
    simp [apply, listOf, side, Report.push, Report.listOf, Diagnostic.isError, h]

theorem listOf_gather_self (x : Exchange) (s : Side) (v : Severity) :
    (x.apply (.gather s)).listOf s v = x.listOf s v ++ x.listOf s.other v := by
  cases s <;> cases v <;> rfl

theorem listOf_gather_other (x : Exchange) (s : Side) (v : Severity) :
    (x.apply (.gather s)).listOf s.other v = [] := by
  cases s <;> cases v <;> rfl

theorem run_concat (x : Exchange) (moves : List Move) (m : Move) :
    x.run (moves ++ [m]) = (x.run moves).apply m := by
  simp [run]

/-! ### The movements of one severity -/

/-- Whether a movement touches the lists for a severity: all but the pushes of the other one do. -/
def Move.concerns (v : Severity) : Move → Bool
  | .push _ d => d.severity == v
  | .gather _ => true

/-- Two exchanges with the same lists for a severity. -/
def Agree (v : Severity) (x y : Exchange) : Prop := ∀ s, x.listOf s v = y.listOf s v

variable {x y : Exchange} {v : Severity}

theorem Agree.apply (h : Agree v x y) (m : Move) : Agree v (x.apply m) (y.apply m) := by
  intro s'
  cases m with
  | push s d => rw [listOf_push, listOf_push, h s']
  | gather s =>
    by_cases hs : s' = s
    · rw [hs, listOf_gather_self, listOf_gather_self, h s, h s.other]
    · rw [Side.eq_other_of_ne hs, listOf_gather_other, listOf_gather_other]

theorem agree_apply_of_not_concerns {m : Move} (h : m.concerns v = false) :
    Agree v (x.apply m) x := by
  intro s'
  cases m with
  | push s d =>
    have hne : ¬(s' = s ∧ v = d.severity) := by
      rintro ⟨-, rfl⟩
      simp [Move.concerns] at h
    rw [listOf_push, if_neg hne]
  | gather s => simp [Move.concerns] at h

/-- The lists for a severity come about without the pushes of the other one. -/
theorem Agree.run (h : Agree v x y) (moves : List Move) :
    Agree v (x.run moves) (y.run (moves.filter (Move.concerns v))) := by
  induction moves generalizing x y with
  | nil => exact h
  | cons m moves ih =>
    cases hm : m.concerns v with
    | true =>
      rw [List.filter_cons_of_pos hm]
      exact ih (h.apply m)
    | false =>
      rw [List.filter_cons_of_neg (by simp [hm])]
      exact ih fun s => (agree_apply_of_not_concerns hm s).trans (h s)

/-! ### Places -/

/-- A place in two reports: a side, the list for a severity, and an index in it. -/
structure Place where
  side : Side
  severity : Severity
  index : Nat
  deriving DecidableEq

/-- What stands at a place. -/
def at? (x : Exchange) (p : Place) : Option Diagnostic := (x.listOf p.side p.severity)[p.index]?

/-- The places at which something stands. -/
def occupied (x : Exchange) : Set Place := {p | (x.at? p).isSome}

/-- The place behind the last one in a list. -/
def nextPlace (x : Exchange) (s : Side) (v : Severity) : Place := ⟨s, v, (x.listOf s v).length⟩

/-- The place that takes the place of another one when one side takes over everything. -/
def relocate (x : Exchange) (s : Side) (p : Place) : Place :=
  if p.side = s then p else ⟨s, p.severity, (x.listOf s p.severity).length + p.index⟩

theorem mem_occupied_iff {p : Place} :
    p ∈ x.occupied ↔ p.index < (x.listOf p.side p.severity).length := by
  simp [occupied, at?]

theorem nextPlace_not_mem_occupied (x : Exchange) (s : Side) (v : Severity) :
    x.nextPlace s v ∉ x.occupied := by
  rw [mem_occupied_iff]
  exact Nat.lt_irrefl _

theorem at?_push_nextPlace (x : Exchange) (s : Side) (d : Diagnostic) :
    (x.apply (.push s d)).at? (x.nextPlace s d.severity) = some d := by
  simp [at?, nextPlace, listOf_push]

theorem at?_push_of_occupied {p : Place} (hp : p ∈ x.occupied) (s : Side) (d : Diagnostic) :
    (x.apply (.push s d)).at? p = x.at? p := by
  rw [at?, listOf_push]
  split
  · exact List.getElem?_append_left (mem_occupied_iff.1 hp)
  · rfl

theorem occupied_push (x : Exchange) (s : Side) (d : Diagnostic) :
    (x.apply (.push s d)).occupied = insert (x.nextPlace s d.severity) x.occupied := by
  ext p
  rw [Set.mem_insert_iff, mem_occupied_iff, mem_occupied_iff, listOf_push]
  by_cases hp : p.side = s ∧ p.severity = d.severity
  · obtain ⟨s', v, i⟩ := p
    obtain ⟨rfl, rfl⟩ := hp
    simp only [and_self, if_true, List.length_append, List.length_singleton, nextPlace,
      Place.mk.injEq, true_and]
    omega
  · have hne : p ≠ x.nextPlace s d.severity := fun h => hp ⟨h ▸ rfl, h ▸ rfl⟩
    rw [if_neg hp]
    simp [hne]

theorem side_relocate (x : Exchange) (s : Side) (p : Place) : (x.relocate s p).side = s := by
  unfold relocate
  split
  · assumption
  · rfl

theorem severity_relocate (x : Exchange) (s : Side) (p : Place) :
    (x.relocate s p).severity = p.severity := by
  unfold relocate
  split <;> rfl

theorem at?_relocate {p : Place} (hp : p ∈ x.occupied) (s : Side) :
    (x.apply (.gather s)).at? (x.relocate s p) = x.at? p := by
  rw [at?, side_relocate, severity_relocate, listOf_gather_self, at?]
  by_cases hs : p.side = s
  · rw [relocate, if_pos hs, ← hs]
    exact List.getElem?_append_left (mem_occupied_iff.1 hp)
  · rw [relocate, if_neg hs, Side.eq_other_of_ne hs]
    rw [List.getElem?_append_right (Nat.le_add_right _ _), Nat.add_sub_cancel_left]

/-- A place that keeps its index is told from one that comes behind the list. -/
theorem relocate_injOn (x : Exchange) (s : Side) : Set.InjOn (x.relocate s) x.occupied := by
  rintro ⟨side, v, i⟩ hp ⟨side', v', i'⟩ hq heq
  rw [mem_occupied_iff] at hp hq
  simp only at hp hq
  unfold relocate at heq
  split at heq <;> split at heq <;> simp only [Place.mk.injEq] at heq
  · simpa using heq
  · next hs hs' =>
    simp only at hs
    obtain ⟨-, rfl, hi⟩ := heq
    rw [hs] at hp
    omega
  · next hs hs' =>
    simp only at hs'
    obtain ⟨-, rfl, hi⟩ := heq
    rw [hs'] at hq
    omega
  · next hs hs' =>
    simp only at hs hs'
    obtain ⟨-, rfl, hi⟩ := heq
    rw [Side.eq_other_of_ne hs, Side.eq_other_of_ne hs', Nat.add_left_cancel hi]

theorem relocate_surjOn (x : Exchange) (s : Side) :
    Set.SurjOn (x.relocate s) x.occupied (x.apply (.gather s)).occupied := by
  rintro ⟨side, v, i⟩ hq
  rw [mem_occupied_iff] at hq
  simp only at hq
  by_cases hs : side = s
  · subst hs
    rw [listOf_gather_self, List.length_append] at hq
    by_cases hi : i < (x.listOf side v).length
    · exact ⟨⟨side, v, i⟩, mem_occupied_iff.2 hi, by simp [relocate]⟩
    · refine ⟨⟨side.other, v, i - (x.listOf side v).length⟩, mem_occupied_iff.2 ?_, ?_⟩
      · change i - (x.listOf side v).length < (x.listOf side.other v).length
        omega
      · simp only [relocate, side.other_ne, if_false, Place.mk.injEq, true_and]
        omega
  · rw [Side.eq_other_of_ne hs, listOf_gather_other] at hq
    exact absurd hq (Nat.not_lt_zero _)

/-- One side takes over everything: each place that is occupied gets a place of its own there, and
no other place is occupied then. -/
theorem bijOn_relocate (x : Exchange) (s : Side) :
    Set.BijOn (x.relocate s) x.occupied (x.apply (.gather s)).occupied := by
  refine ⟨fun p hp => ?_, x.relocate_injOn s, x.relocate_surjOn s⟩
  change ((x.apply (.gather s)).at? (x.relocate s p)).isSome = true
  rw [at?_relocate hp]
  exact hp

/-! ### Diagnostics on their way -/

/-- Where a diagnostic comes from that two reports hold behind some movements: from a place at the
start, or from a push, with the number of the movement. -/
inductive Origin where
  | held (p : Place)
  | pushed (step : Nat)
  deriving DecidableEq

/-- What comes from an origin: the diagnostic, the side and the severity of the list that it comes
into, and the movements behind. -/
structure Arrival where
  diagnostic : Diagnostic
  side : Side
  severity : Severity
  later : List Move

/-- The same arrival, with one more movement behind it. -/
def Arrival.followedBy (a : Arrival) (m : Move) : Arrival := { a with later := a.later ++ [m] }

/-- What comes from an origin, if anything does. -/
def arrival? (x : Exchange) (moves : List Move) : Origin → Option Arrival
  | .held p => (x.at? p).map fun d => ⟨d, p.side, p.severity, moves⟩
  | .pushed k =>
    match moves[k]? with
    | some (.push s d) => some ⟨d, s, d.severity, moves.drop (k + 1)⟩
    | _ => none

/-- The side on which a diagnostic is behind some movements: a side that takes over everything draws
it to itself. -/
def sideAfter (s : Side) : List Move → Side
  | [] => s
  | .push _ _ :: moves => sideAfter s moves
  | .gather s' :: moves => sideAfter s' moves

theorem sideAfter_concat_push (s s' : Side) (d : Diagnostic) (moves : List Move) :
    sideAfter s (moves ++ [.push s' d]) = sideAfter s moves := by
  induction moves generalizing s with
  | nil => rfl
  | cons m moves ih => cases m <;> exact ih _

theorem sideAfter_concat_gather (s s' : Side) (moves : List Move) :
    sideAfter s (moves ++ [.gather s']) = s' := by
  induction moves generalizing s with
  | nil => rfl
  | cons m moves ih => cases m <;> exact ih _

section Arrivals

variable (x : Exchange) (moves : List Move)

/-- The origins of all that comes into two reports: the places that are occupied at the start, and the
movements that push something. -/
def origins : Set Origin :=
  Origin.held '' x.occupied ∪ Origin.pushed '' {k | ∃ s d, moves[k]? = some (.push s d)}

theorem mem_origins_iff {o : Origin} :
    o ∈ x.origins moves ↔ (x.arrival? moves o).isSome = true := by
  cases o with
  | held p => simp [origins, arrival?, occupied]
  | pushed k =>
    simp only [origins, arrival?, Set.mem_union, Set.mem_image, reduceCtorEq, and_false,
      exists_false, false_or, Origin.pushed.injEq, exists_eq_right]
    constructor
    · rintro ⟨s, d, hk⟩
      rw [hk]
      rfl
    · intro h
      split at h
      · next s d hk => exact ⟨s, d, hk⟩
      · cases h

theorem mem_origins_of_arrival? {o : Origin} {a : Arrival} (h : x.arrival? moves o = some a) :
    o ∈ x.origins moves := by
  rw [mem_origins_iff, h]
  rfl

/-- A movement at the end stands behind all that came before it. -/
theorem arrival?_concat {o : Origin} (m : Move) (h : o ≠ .pushed moves.length) :
    x.arrival? (moves ++ [m]) o = (x.arrival? moves o).map (·.followedBy m) := by
  cases o with
  | held p => simp [arrival?, Arrival.followedBy, Function.comp_def]
  | pushed k =>
    have hk : k ≠ moves.length := fun heq => h (heq ▸ rfl)
    rcases Nat.lt_or_gt_of_ne hk with hlt | hgt
    · have hdrop : (moves ++ [m]).drop (k + 1) = moves.drop (k + 1) ++ [m] :=
        List.drop_append_of_le_length hlt
      simp only [arrival?, List.getElem?_append_left hlt, hdrop]
      split <;> rfl
    · have hnone : (moves ++ [m])[k]? = none :=
        List.getElem?_eq_none (by simpa using Nat.succ_le_of_lt hgt)
      have hnone' : moves[k]? = none := List.getElem?_eq_none (Nat.le_of_lt hgt)
      simp only [arrival?, hnone, hnone', Option.map_none]

theorem arrival?_length : x.arrival? moves (.pushed moves.length) = none := by
  simp [arrival?]

theorem arrival?_concat_push (s : Side) (d : Diagnostic) :
    x.arrival? (moves ++ [.push s d]) (.pushed moves.length) = some ⟨d, s, d.severity, []⟩ := by
  simp [arrival?]

theorem arrival?_concat_gather (s : Side) :
    x.arrival? (moves ++ [.gather s]) (.pushed moves.length) = none := by
  simp [arrival?]

/-- What comes from an origin behind one more movement came from it before, or is pushed by this
movement. -/
theorem of_arrival?_concat {m : Move} {o : Origin} {a : Arrival}
    (h : x.arrival? (moves ++ [m]) o = some a) :
    (∃ b, x.arrival? moves o = some b ∧ a = b.followedBy m) ∨
      ∃ s d, m = .push s d ∧ o = .pushed moves.length ∧ a = ⟨d, s, d.severity, []⟩ := by
  by_cases ho : o = .pushed moves.length
  · subst ho
    cases m with
    | push s d =>
      rw [arrival?_concat_push] at h
      exact .inr ⟨s, d, rfl, rfl, (Option.some.inj h).symm⟩
    | gather s =>
      rw [arrival?_concat_gather] at h
      cases h
  · rw [arrival?_concat x moves m ho] at h
    obtain ⟨b, hb, rfl⟩ := Option.map_eq_some_iff.1 h
    exact .inl ⟨b, hb, rfl⟩

theorem origins_concat_push (s : Side) (d : Diagnostic) :
    x.origins (moves ++ [.push s d]) = insert (.pushed moves.length) (x.origins moves) := by
  ext o
  rw [Set.mem_insert_iff, mem_origins_iff, mem_origins_iff]
  by_cases ho : o = .pushed moves.length
  · subst ho
    simp [arrival?_concat_push]
  · simp [arrival?_concat x moves _ ho, ho]

theorem origins_concat_gather (s : Side) :
    x.origins (moves ++ [.gather s]) = x.origins moves := by
  ext o
  rw [mem_origins_iff, mem_origins_iff]
  by_cases ho : o = .pushed moves.length
  · subst ho
    rw [arrival?_concat_gather, arrival?_length]
  · simp [arrival?_concat x moves _ ho]

end Arrivals

/-- An arrival stands at a place: in the list that it came into, and on the side to which the movements
behind it have brought it. -/
structure Arrival.FoundAt (a : Arrival) (x : Exchange) (p : Place) : Prop where
  at?_eq : x.at? p = some a.diagnostic
  severity_eq : p.severity = a.severity
  side_eq : p.side = sideAfter a.side a.later

namespace Arrival

variable {a : Arrival} {p : Place}

theorem FoundAt.mem_occupied (h : a.FoundAt x p) : p ∈ x.occupied :=
  Option.isSome_iff_exists.2 ⟨_, h.at?_eq⟩

theorem FoundAt.push (h : a.FoundAt x p) (s : Side) (d : Diagnostic) :
    (a.followedBy (.push s d)).FoundAt (x.apply (.push s d)) p where
  at?_eq := (at?_push_of_occupied h.mem_occupied s d).trans h.at?_eq
  severity_eq := h.severity_eq
  side_eq := h.side_eq.trans (sideAfter_concat_push _ _ _ _).symm

theorem FoundAt.gather (h : a.FoundAt x p) (s : Side) :
    (a.followedBy (.gather s)).FoundAt (x.apply (.gather s)) (x.relocate s p) where
  at?_eq := (at?_relocate h.mem_occupied s).trans h.at?_eq
  severity_eq := (severity_relocate x s p).trans h.severity_eq
  side_eq := (side_relocate x s p).trans (sideAfter_concat_gather _ _ _).symm

theorem foundAt_nextPlace (x : Exchange) (s : Side) (d : Diagnostic) :
    FoundAt ⟨d, s, d.severity, []⟩ (x.apply (.push s d)) (x.nextPlace s d.severity) where
  at?_eq := at?_push_nextPlace x s d
  severity_eq := rfl
  side_eq := rfl

end Arrival

/-- Which place everything has that came into two reports: to each origin belongs a place of its own,
at which stands what comes from the origin, and nothing stands anywhere else. -/
structure Tracks (x : Exchange) (moves : List Move) (place : Origin → Place) : Prop where
  bijOn : Set.BijOn place (x.origins moves) (x.run moves).occupied
  foundAt : ∀ {o a}, x.arrival? moves o = some a → a.FoundAt (x.run moves) (place o)

section Tracks

variable {moves : List Move} {place : Origin → Place}

/-- The place of everything before any movement. -/
def Origin.start : Origin → Place
  | .held p => p
  | .pushed k => ⟨.left, .error, k⟩

theorem tracks_nil (x : Exchange) : x.Tracks [] Origin.start := by
  have hheld : ∀ o ∈ x.origins [], ∃ p, o = .held p := by
    intro o ho
    cases o with
    | held p => exact ⟨p, rfl⟩
    | pushed k => simp [origins] at ho
  have hiff : ∀ p, Origin.held p ∈ x.origins [] ↔ p ∈ x.occupied := by
    intro p
    simp [origins]
  refine ⟨⟨fun o ho => ?_, fun o ho o' ho' heq => ?_, fun p hp => ?_⟩, fun {o a} ha => ?_⟩
  · obtain ⟨p, rfl⟩ := hheld o ho
    exact (hiff p).1 ho
  · obtain ⟨p, rfl⟩ := hheld o ho
    obtain ⟨p', rfl⟩ := hheld o' ho'
    exact congrArg Origin.held heq
  · exact ⟨.held p, (hiff p).2 hp, rfl⟩
  · obtain ⟨p, rfl⟩ := hheld o (mem_origins_of_arrival? x [] ha)
    obtain ⟨d, hd, rfl⟩ := Option.map_eq_some_iff.1 ha
    exact ⟨hd, rfl, rfl⟩

theorem Tracks.push (h : x.Tracks moves place) (s : Side) (d : Diagnostic) :
    x.Tracks (moves ++ [.push s d])
      (Function.update place (.pushed moves.length) ((x.run moves).nextPlace s d.severity)) := by
  have hnew : Origin.pushed moves.length ∉ x.origins moves := by
    simp [origins]
  have hkept : Set.EqOn place (Function.update place (.pushed moves.length)
      ((x.run moves).nextPlace s d.severity)) (x.origins moves) := by
    intro o ho
    refine (Function.update_of_ne ?_ _ _).symm
    rintro rfl
    exact hnew ho
  constructor
  · have hbijOn := (h.bijOn.congr hkept).insert (a := .pushed moves.length)
      (by rw [Function.update_self]; exact nextPlace_not_mem_occupied _ _ _)
    rw [Function.update_self] at hbijOn
    rw [origins_concat_push, run_concat, occupied_push]
    exact hbijOn
  · intro o a ha
    rw [run_concat]
    rcases of_arrival?_concat x moves ha with ⟨b, hb, rfl⟩ | ⟨s', d', hm, rfl, rfl⟩
    · rw [← hkept (mem_origins_of_arrival? x moves hb)]
      exact (h.foundAt hb).push s d
    · obtain ⟨rfl, rfl⟩ := Move.push.inj hm
      rw [Function.update_self]
      exact Arrival.foundAt_nextPlace _ _ _

theorem Tracks.gather (h : x.Tracks moves place) (s : Side) :
    x.Tracks (moves ++ [.gather s]) ((x.run moves).relocate s ∘ place) := by
  constructor
  · rw [origins_concat_gather, run_concat]
    exact (bijOn_relocate _ s).comp h.bijOn
  · intro o a ha
    rw [run_concat]
    rcases of_arrival?_concat x moves ha with ⟨b, hb, rfl⟩ | ⟨s', d', hm, -, -⟩
    · exact (h.foundAt hb).gather s
    · cases hm

/-- Everything can be followed through any movements. -/
theorem exists_tracks (x : Exchange) (moves : List Move) : ∃ place, x.Tracks moves place := by
  induction moves using List.reverseRecOn with
  | nil => exact ⟨Origin.start, x.tracks_nil⟩
  | append_singleton moves m ih =>
    obtain ⟨place, h⟩ := ih
    cases m with
    | push s d => exact ⟨_, h.push s d⟩
    | gather s => exact ⟨_, h.gather s⟩

end Tracks

/-- **Nothing is lost or doubled, and errors and warnings do not mix.** Behind any movements each
diagnostic that was pushed, and each one that was there from the start, has exactly one place, in the
list of its severity and on the side to which the last report that was emptied behind it took it; and
at every other place nothing stands. One more movement puts what is pushed at the end of its list, and
the lists of a report that is emptied at the ends of those of the other one. The errors on both sides
are those that the movements without the pushes of warnings lead to, and the warnings those without
the pushes of errors. A report counts as empty exactly if both of its lists are. -/
theorem run_places (x : Exchange) (moves : List Move) :
    (∃ place : Origin → Place,
      Set.BijOn place (x.origins moves) (x.run moves).occupied ∧
      (∀ k s d, moves[k]? = some (.push s d) →
        (x.run moves).at? (place (.pushed k)) = some d ∧
        (place (.pushed k)).severity = d.severity ∧
        (place (.pushed k)).side = sideAfter s (moves.drop (k + 1))) ∧
      ∀ p d, x.at? p = some d →
        (x.run moves).at? (place (.held p)) = some d ∧
        (place (.held p)).severity = p.severity ∧
        (place (.held p)).side = sideAfter p.side moves) ∧
    (∀ s d s' v, (x.run (moves ++ [.push s d])).listOf s' v =
      if s' = s ∧ v = d.severity then (x.run moves).listOf s' v ++ [d]
      else (x.run moves).listOf s' v) ∧
    (∀ s v, (x.run (moves ++ [.gather s])).listOf s v =
        (x.run moves).listOf s v ++ (x.run moves).listOf s.other v ∧
      (x.run (moves ++ [.gather s])).listOf s.other v = []) ∧
    (∀ s, ((x.run moves).side s).errors =
        ((x.run (moves.filter (Move.concerns .error))).side s).errors ∧
      ((x.run moves).side s).warnings =
        ((x.run (moves.filter (Move.concerns .warning))).side s).warnings) ∧
    ∀ r : Report, r.isEmpty = true ↔ r.errors = [] ∧ r.warnings = [] := by
  obtain ⟨place, h⟩ := x.exists_tracks moves
  refine ⟨⟨place, h.bijOn, fun k s d hk => ?_, fun p d hp => ?_⟩, fun s d s' v => ?_,
    fun s v => ?_, fun s => ⟨?_, ?_⟩, fun r => Report.isEmpty_iff⟩
  · have harrival : x.arrival? moves (.pushed k) =
        some ⟨d, s, d.severity, moves.drop (k + 1)⟩ := by
      simp [arrival?, hk]
    have hfound := h.foundAt harrival
    exact ⟨hfound.at?_eq, hfound.severity_eq, hfound.side_eq⟩
  · have harrival : x.arrival? moves (.held p) = some ⟨d, p.side, p.severity, moves⟩ := by
      simp [arrival?, hp]
    have hfound := h.foundAt harrival
    exact ⟨hfound.at?_eq, hfound.severity_eq, hfound.side_eq⟩
  · rw [run_concat, listOf_push]
  · rw [run_concat]
    exact ⟨listOf_gather_self _ s v, listOf_gather_other _ s v⟩
  · exact Agree.run (fun _ => rfl) moves s (v := .error)
  · exact Agree.run (fun _ => rfl) moves s (v := .warning)

/-- The same error is pushed on both sides, and a warning between. -/
def crossingMoves : List Move :=
  [.push .left ⟨.error, ⟨1, 1⟩, "m"⟩, .push .right ⟨.warning, ⟨2, 1⟩, "w"⟩, .gather .left,
    .push .right ⟨.error, ⟨1, 1⟩, "m"⟩, .gather .right]

/-- The two equal errors end at two places, both on the right side, and they would do so without the
warning. -/
theorem run_places_crossingMoves :
    (∃ p q : Place, p ≠ q ∧ p.side = .right ∧ q.side = .right ∧
      p.severity = .error ∧ q.severity = .error ∧
      (run {} crossingMoves).at? p = some ⟨.error, ⟨1, 1⟩, "m"⟩ ∧
      (run {} crossingMoves).at? q = some ⟨.error, ⟨1, 1⟩, "m"⟩) ∧
    (run {} crossingMoves).right.errors = (run {}
      [.push .left ⟨.error, ⟨1, 1⟩, "m"⟩, .gather .left, .push .right ⟨.error, ⟨1, 1⟩, "m"⟩,
        .gather .right]).right.errors ∧
    (run {} crossingMoves).left.isEmpty = true := by
  obtain ⟨⟨place, hbijOn, hpushed, -⟩, -, -, hfiltered, hempty⟩ := run_places {} crossingMoves
  obtain ⟨hfirst, hfirstSeverity, hfirstSide⟩ := hpushed 0 .left _ rfl
  obtain ⟨hsecond, hsecondSeverity, hsecondSide⟩ := hpushed 3 .right _ rfl
  refine ⟨⟨_, _, fun heq => ?_, hfirstSide, hsecondSide, hfirstSeverity, hsecondSeverity, hfirst,
    hsecond⟩, (hfiltered .right).1, (hempty _).2 (by decide)⟩
  have hsame : Origin.pushed 0 = .pushed 3 := hbijOn.injOn
    (.inr ⟨0, ⟨_, _, rfl⟩, rfl⟩) (.inr ⟨3, ⟨_, _, rfl⟩, rfl⟩) heq
  cases hsame

end Exchange

end ProgramCheck
