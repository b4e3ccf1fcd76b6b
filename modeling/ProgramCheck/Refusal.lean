/-!
# Refusals

The requests that a compilation refuses: for the symbols of a tree that it does not hold, and to
disable a rule that no registered rule is named after.
-/

namespace ProgramCheck

/-- Why a request is refused. -/
inductive Refusal
  | unknownTree (name : String)
  | unknownRule (name : String)
  deriving DecidableEq

/-- The wording of a refusal. -/
def Refusal.message : Refusal → String
  | .unknownTree name => "syntax tree '" ++ name ++ "' is not registered in this compilation"
  | .unknownRule name => "unknown semantic rule '" ++ name ++ "'"

end ProgramCheck
