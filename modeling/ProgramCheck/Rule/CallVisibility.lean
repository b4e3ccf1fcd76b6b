import ProgramCheck.Rule.Basic

/-!
# Visibility of calls

A call has to be of a function that was visited before it. Of the functions of one name the one
visited last counts, in whichever tree it stands. From within the module of that function the call
is fine; from any other module the function has to be exported, and its module has to be imported by
the program of the call. The two conditions are reported on their own.
-/

namespace ProgramCheck

/-- The module of a function, by name, and its modifiers. -/
structure Origin where
  moduleName : String
  modifiers : Modifiers
  deriving DecidableEq

namespace Tree

/-- The name of the nearest module above a node. -/
def moduleNameAbove? (t : Tree) (id : NodeId) : Option String :=
  ((t.enclosingModule? id).bind t.module?).map (·.name)

/-- Whether the program imports a module of this name, up to the case of ASCII letters. -/
def importsModule (t : Tree) (name : String) : Bool :=
  (t.program.imports.filterMap t.import?).any fun i => sameIgnoringAsciiCase i.moduleName name

/-- The errors on a call of the function `name` that was declared at `origin`. -/
def callErrors (t : Tree) (id : NodeId) (name : String) (origin : Origin) : List Diagnostic :=
  match t.moduleNameAbove? id with
  | none => [t.error id ("Function call '" ++ name ++ "' is not inside any module.")]
  | some caller =>
    if caller = origin.moduleName then []
    else
      (if t.importsModule origin.moduleName then []
        else [t.error id ("Cannot call function '" ++ name ++ "' from module '" ++
          origin.moduleName ++ "' because it is not imported.")]) ++
      (if origin.modifiers.exported then []
        else [t.error id ("Tried to call inaccessible function '" ++ name ++
          "' (not exported).")])

end Tree

/-- Every call is of a function that was visited before and that the caller may see. The state holds
the origins of the visited functions by name, the latest in front. -/
def Rule.callVisibility : Rule where
  name := "function-call-visibility"
  State := List (String × Origin)
  start := []
  respond cx v declared :=
    match v.subject with
    | .functionDecl f =>
      match cx.tree.moduleNameAbove? v.id with
      | none => .error (.outsideModule f.name)
      | some m => .ok { state := (f.name, ⟨m, f.modifiers⟩) :: declared }
    | .expression (.call name _) =>
      .ok {
        state := declared
        reports :=
          match declared.lookup name with
          | none => [cx.tree.error v.id ("Tried to call unknown function '" ++ name ++ "'.")]
          | some origin => cx.tree.callErrors v.id name origin }
    | _ => .ok { state := declared }

end ProgramCheck
