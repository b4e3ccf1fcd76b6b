import ProgramCheck.Diagnostic

/-!
# Reports

A report holds the errors and the warnings of a check in two lists, each in the order in which they
were made. A diagnostic is filed by its severity, so the order between an error and a warning is
not kept. `Exchange` is the traffic between two reports: diagnostics are pushed to either of them,
and one may be emptied into the other.
-/

namespace ProgramCheck

/-- The errors and the warnings of a check, each in the order in which they were made. -/
structure Report where
  errors : List Diagnostic := []
  warnings : List Diagnostic := []
  deriving DecidableEq, Inhabited

namespace Report

/-- The report with a diagnostic added at the end of the list of its severity. -/
def push (r : Report) (d : Diagnostic) : Report :=
  if d.isError then { r with errors := r.errors ++ [d] }
  else { r with warnings := r.warnings ++ [d] }

/-- The report of a list of diagnostics. -/
def ofList (ds : List Diagnostic) : Report :=
  ⟨ds.filter (·.isError), ds.filter (!·.isError)⟩

instance : Append Report where
  append r s := ⟨r.errors ++ s.errors, r.warnings ++ s.warnings⟩

/-- Whether the report holds nothing. -/
def isEmpty (r : Report) : Bool := r.errors.isEmpty && r.warnings.isEmpty

/-- The report with its warnings made errors, behind the errors it already has. -/
def promoteWarnings (r : Report) : Report :=
  ⟨r.errors ++ r.warnings.map Diagnostic.asError, []⟩

@[simp] theorem errors_append (r s : Report) : (r ++ s).errors = r.errors ++ s.errors := rfl

@[simp] theorem warnings_append (r s : Report) : (r ++ s).warnings = r.warnings ++ s.warnings := rfl

theorem append_empty (r : Report) : r ++ {} = r := by
  change Report.mk (r.errors ++ []) (r.warnings ++ []) = r
  simp

theorem empty_append (r : Report) : {} ++ r = r := rfl

theorem append_assoc (r s u : Report) : r ++ s ++ u = r ++ (s ++ u) := by
  change Report.mk (r.errors ++ s.errors ++ u.errors) (r.warnings ++ s.warnings ++ u.warnings) =
    Report.mk (r.errors ++ (s.errors ++ u.errors)) (r.warnings ++ (s.warnings ++ u.warnings))
  simp

@[simp] theorem ofList_nil : ofList [] = {} := rfl

theorem ofList_append (ds es : List Diagnostic) : ofList (ds ++ es) = ofList ds ++ ofList es := by
  simp only [ofList, List.filter_append]
  rfl

theorem push_eq_append (r : Report) (d : Diagnostic) : r.push d = r ++ ofList [d] := by
  cases r with
  | mk errors warnings =>
    cases h : d.isError
    · change push ⟨errors, warnings⟩ d = ⟨errors ++ _, warnings ++ _⟩
      simp [push, ofList, h]
    · change push ⟨errors, warnings⟩ d = ⟨errors ++ _, warnings ++ _⟩
      simp [push, ofList, h]

end Report

/-- One of two reports. -/
inductive Side where
  | left
  | right
  deriving DecidableEq

/-- Two reports between which diagnostics move. -/
structure Exchange where
  left : Report := {}
  right : Report := {}
  deriving DecidableEq

namespace Exchange

/-- One movement: a diagnostic comes in, or one side takes over everything the other side has. -/
inductive Move where
  | push (side : Side) (d : Diagnostic)
  | gather (side : Side)
  deriving DecidableEq

/-- The report on one side. -/
def side (x : Exchange) : Side → Report
  | .left => x.left
  | .right => x.right

/-- The two reports after one movement. -/
def apply (x : Exchange) : Move → Exchange
  | .push .left d => { x with left := x.left.push d }
  | .push .right d => { x with right := x.right.push d }
  | .gather .left => ⟨x.left ++ x.right, {}⟩
  | .gather .right => ⟨{}, x.right ++ x.left⟩

/-- The two reports after a sequence of movements. -/
def run (x : Exchange) (moves : List Move) : Exchange := moves.foldl apply x

@[simp] theorem run_nil (x : Exchange) : x.run [] = x := rfl

@[simp] theorem run_cons (x : Exchange) (m : Move) (moves : List Move) :
    x.run (m :: moves) = (x.apply m).run moves := rfl

end Exchange

end ProgramCheck
