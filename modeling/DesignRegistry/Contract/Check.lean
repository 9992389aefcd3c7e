/-
**Checking a script.**

A script is read and the selected rules are applied to it in order.  A script that does not follow
the grammar has one error, and no rule is applied.

Main definitions

* `Rule.diagnostics` — what a rule says about a script;
* `Rule.apply` — what several rules say;
* `Contract.check` — the report on a script.
-/
import DesignRegistry.Contract.ComponentUse
import DesignRegistry.Contract.ElementUse
import DesignRegistry.Contract.TokenUse

namespace DesignRegistry

namespace Rule

/-- What a rule says about a script. -/
def diagnostics (registry : Json) (s : Script.Source) : Rule → List Diagnostic
  | .tokens => tokenDiagnostics registry s
  | .components => componentDiagnostics registry s
  | .props => propDiagnostics s
  | .accessibility => accessibilityDiagnostics s
  | .performance => performanceDiagnostics s
  | .patterns => patternDiagnostics s

/-- What rules say about a script, one after the other. -/
def apply (rules : List Rule) (registry : Json) (s : Script.Source) : Diagnostics :=
  .ofList (rules.flatMap (diagnostics registry s))

end Rule

namespace Contract

/-- The rule that a script breaks when it does not follow the grammar. -/
def syntaxRule : String := "syntax"

/-- The error about a script that does not follow the grammar. -/
def syntaxError (f : Script.SyntaxFault) : Diagnostic :=
  { position := f.position, message := "Parse error: " ++ f.message, rule := syntaxRule
    severity := .error }

/-- What rules say about a script that may not follow the grammar. -/
def findings (rules : List Rule) (registry : Json) :
    Except Script.SyntaxFault Script.Source → Diagnostics
  | .ok s => Rule.apply rules registry s
  | .error f => .ofList [syntaxError f]

/-- The report on a script. -/
def check [Script.Parser] (registry : Json) (rules : List Rule) (strict : Bool)
    (path text : String) : ContractReport :=
  { path, strict
    lines := (linesOf text).length
    rules := rules.length
    diagnostics := findings rules registry (Script.Source.read path text) }

end Contract

end DesignRegistry
