/-
**Rules.**

There are six rules, applied in a fixed order.  A selection names rules by their ids, in any order
and repeated or not.

Main definitions

* `Rule`, `Rule.all`, `Rule.id` — the rules in order;
* `Rule.select` — the rules that a selection names;
* `Rule.error`, `Rule.warning`, `Rule.suggestion` — what a rule says.
-/
import DesignRegistry.Contract.Diagnostic
import DesignRegistry.Registry.Validation

namespace DesignRegistry

/-- A rule about scripts. -/
inductive Rule where
  /-- Values that stand for tokens, and references to tokens. -/
  | tokens
  /-- The use of components that a registry declares. -/
  | components
  /-- Styles and class names. -/
  | props
  /-- What people who do not see or point need. -/
  | accessibility
  /-- What slows pages down. -/
  | performance
  /-- Spacing that leaves the grid. -/
  | patterns
deriving DecidableEq, Repr

namespace Rule

/-- The rules in the order in which they are applied. -/
def all : List Rule := [.tokens, .components, .props, .accessibility, .performance, .patterns]

/-- The id of a rule. -/
def id : Rule → String
  | .tokens => "validate-tokens"
  | .components => "validate-components"
  | .props => "validate-props"
  | .accessibility => "validate-accessibility"
  | .performance => "validate-performance"
  | .patterns => "validate-patterns"

/-- Every rule is among the rules that are applied. -/
theorem mem_all (r : Rule) : r ∈ all := by cases r <;> decide

/-- Rules are told apart by their ids. -/
theorem id_injective {r s : Rule} (h : r.id = s.id) : r = s := by
  revert h
  cases r <;> cases s <;> decide

/-- The ids that belong to no rule, in the order of their characters. -/
def unknownIds (ids : List String) : List String :=
  sortedOnce (ids.filter fun i => !(all.map id).contains i)

/-- The rules that a selection names, in the order in which they are applied; no selection is all
of them. -/
def select : Option (List String) → Except ScanProblem (List Rule)
  | none => .ok all
  | some ids =>
    if (unknownIds ids).isEmpty then .ok (all.filter fun r => ids.contains r.id)
    else .error (.unknownRules (unknownIds ids))

/-! ### What rules say -/

/-- An error. -/
def error (r : Rule) (position : Script.Position) (message : String) : Diagnostic :=
  { position, message, rule := r.id, severity := .error }

/-- A warning. -/
def warning (r : Rule) (position : Script.Position) (message : String)
    (suggestion : Option String := none) : Diagnostic :=
  { position, message, rule := r.id, severity := .warning, suggestion }

/-- A suggestion. -/
def suggestion (r : Rule) (position : Script.Position) (message : String) : Diagnostic :=
  { position, message, rule := r.id, severity := .info }

end Rule

end DesignRegistry
