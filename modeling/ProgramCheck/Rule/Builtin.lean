import ProgramCheck.Rule.CallVisibility
import ProgramCheck.Rule.DuplicateNames
import ProgramCheck.Rule.FunctionBody
import ProgramCheck.Rule.ImportResolution
import ProgramCheck.Rule.ValueType

/-!
# The built-in rules

The seven rules that every program is checked with by default, in their order, and registries: lists
of rules from which analyzers are made. A registry may hold a rule several times.
-/

namespace ProgramCheck

/-- The built-in rules. -/
inductive Builtin
  | duplicateParameter
  | duplicateFunction
  | duplicateModule
  | callVisibility
  | functionBody
  | importResolution
  | valueType
  deriving DecidableEq

namespace Builtin

/-- The built-in rules in their order. -/
def all : List Builtin :=
  [duplicateParameter, duplicateFunction, duplicateModule, callVisibility, functionBody,
    importResolution, valueType]

/-- The rule itself. -/
def rule : Builtin → Rule
  | duplicateParameter => .duplicateParameter
  | duplicateFunction => .duplicateFunction
  | duplicateModule => .duplicateModule
  | callVisibility => .callVisibility
  | functionBody => .functionBody
  | importResolution => .importResolution
  | valueType => .valueType

/-- The name of the rule. -/
def name (b : Builtin) : String := b.rule.name

/-- The built-in rule of a name. -/
def ofName? (name : String) : Option Builtin := all.find? (·.name == name)

theorem mem_all (b : Builtin) : b ∈ all := by cases b <;> decide

end Builtin

/-- The rules that an analyzer is made from, in their order. -/
abbrev Registry := List Rule

/-- The names of the rules in a registry, in their order. -/
def Registry.names (registry : Registry) : List String := registry.map Rule.name

/-- The registry of the built-in rules. -/
def Registry.builtin : Registry := Builtin.all.map (·.rule)

end ProgramCheck
