/-
**Reading scripts.**

`Script.parse` gives the syntax tree of a script in a dialect.  The grammar's rules are tied together
by a bound on the depth of recursion; between two rules that read nothing there are fewer than
thirty others, so a multiple of the script's length is enough.  A script that does not follow the
grammar gives a tree that is flawed.

Main definitions

* `Script.rules` — the rules to a depth;
* `Script.Dialect.of` — the dialect of a script by its path and its text;
* `Script.parse` — the tree of a script.
-/
import DesignRegistry.Script.Grammar.Statements

namespace DesignRegistry

namespace Script

open Reader

/-- The rules to a depth; below it nothing can be read. -/
def rules : Nat → Rules
  | 0 =>
    { expression := fun _ => failure
      assignment := fun _ => failure
      operand := fun _ => failure
      statement := failure
      type := failure
      pattern := failure
      element := failure }
  | depth + 1 =>
    { expression := fun c i => expressionRule (rules depth) c i
      assignment := fun c i => assignmentRule (rules depth) c i
      operand := fun c i => operandRule (rules depth) c i
      statement := fun i => statementRule (rules depth) i
      type := fun i => Script.type (rules depth) i
      pattern := fun i => Script.pattern (rules depth) i
      element := fun i => Script.element (rules depth) i }

/-- A line at the top that names the program to run a script with. -/
def shebang : Reader Unit := do
  exactly "#!"
  advance ((← rest).takeWhile (· != '\n')).length

/-- A whole script. -/
def program (R : Rules) : Reader Tree := do
  let start ← here
  let _ ← optionally shebang
  let body ← manyOf R.statement
  let _ ← skipTrivia
  guardThat (← rest).isEmpty
  finish .plain start body

/-- A tree for a script that does not follow the grammar. -/
def unreadable (stop : Nat) : Tree :=
  .node .plain none .origin stop false true
    [.node .error none .origin stop false true []]

/-- The tree of a script. -/
def parse (dialect : Dialect) (source : String) : Tree :=
  let s := source.toList
  match program (rules (32 * (s.length + 2))) ⟨s, .origin, dialect⟩ with
  | some (t, _) => t
  | none => unreadable source.utf8ByteSize

/-! ### Dialects -/

/-- Whether a script is taken to have types. -/
def isTyped (path text : String) : Bool :=
  Text.hasBack path ".ts" || Text.hasBack path ".tsx" || Text.contains text "interface "
    || Text.contains text ": React."

/-- The dialect of a script by its path and its text. -/
def Dialect.of (path text : String) : Dialect :=
  if Text.hasBack path ".ts" then .typed
  else if isTyped path text then .typedElements
  else .plain

end Script

end DesignRegistry
