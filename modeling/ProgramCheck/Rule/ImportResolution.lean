import ProgramCheck.Rule.Basic

/-!
# Imports

Every import names a module that is declared in some tree of the compilation, where names match in
lower case. To import a module again in the same program is worth a warning. The rule lists all
modules of the compilation for this, and thereby consults every node.
-/

namespace ProgramCheck

/-- The diagnostics on one import, given the modules that are known and those that were imported
before it, all in lower case. -/
def Tree.importReports (t : Tree) (known before : List String) (id : NodeId) (i : Import) :
    List Diagnostic :=
  (if lowercase i.moduleName ∈ before then
    [t.warning id ("Duplicate import of module '" ++ i.moduleName ++ "'.")] else []) ++
  (if lowercase i.moduleName ∈ known then []
    else [t.error id ("Could not resolve import '" ++ i.moduleName ++ "'.")])

/-- The diagnostics on a list of imports behind those with the names `before`. -/
def Tree.importsReports (t : Tree) (known : List String) (before : List String) :
    List NodeId → List Diagnostic
  | [] => []
  | id :: ids =>
    match t.import? id with
    | none => t.importsReports known before ids
    | some i =>
      t.importReports known before id i ++
        t.importsReports known (lowercase i.moduleName :: before) ids

/-- Every import names a module of the compilation, and no program imports a module twice. -/
def Rule.importResolution : Rule where
  name := "import"
  State := Unit
  start := ()
  respond cx v _ :=
    match v.subject with
    | .program p =>
      .ok {
        state := ()
        reports := cx.tree.importsReports (cx.compilation.moduleNames.map lowercase) [] p.imports
        consulted := cx.compilation.allNodes }
    | _ => .ok { state := () }

end ProgramCheck
