/-
**The grammar of scripts: recursion and shared parts.**

The rules of a grammar refer to each other.  Each rule is written as a function of `Rules`, a record
that holds the recursive ones, and the knot is tied in one place by a bound on the depth.  A rule
reads a part of the script and gives its tree.

Main definitions

* `Script.Context`, `Script.Rules` — what surrounds an expression, and the recursive rules;
* `Script.between`, `Script.listOf` — bracketed parts and lists;
* `Script.pattern`, `Script.parameters` — what binds names, and the parameters of a function.
-/
import DesignRegistry.Script.Input

namespace DesignRegistry

namespace Script

open Reader

/-! ### Recursive rules -/

/-- What surrounds an expression. -/
structure Context where
  /-- The operator `in` would end the expression. -/
  noIn : Bool := false
  /-- A colon after parentheses belongs to a condition and not to a function. -/
  noReturnType : Bool := false

/-- The rules that refer to each other. -/
structure Rules where
  /-- An expression, commas included. -/
  expression : Context → Reader Tree
  /-- An expression up to a comma. -/
  assignment : Context → Reader Tree
  /-- An operand with the operators before it, and whether it can be assigned to. -/
  operand : Context → Reader (Tree × Bool)
  /-- A statement. -/
  statement : Reader Tree
  /-- A type. -/
  type : Reader Tree
  /-- What binds names: a name or a pattern of names. -/
  pattern : Reader Tree
  /-- An element. -/
  element : Reader Tree

/-! ### Combinations -/

/-- A list with commas up to a closing mark; a comma may stand at the end. -/
def listOf {α : Type} (close : String) (item : Reader α) : Nat → Reader (List α)
  | 0 => failure
  | n + 1 => do
    if ← takeSymbol close then return []
    let x ← item
    if ← takeSymbol "," then return x :: (← listOf close item n)
    symbol close
    return [x]

/-- A list with commas between brackets; the opening one is read. -/
def bracketed {α : Type} (close : String) (item : Reader α) : Reader (List α) := do
  listOf close item ((← rest).length + 1)

/-- Fails unless the dialect has types. -/
def typesOnly : Reader Unit := do guardThat (← dialect).hasTypes

/-- A part that only scripts with types can have. -/
def whenTyped (p : Reader Tree) : Reader (List Tree) := do
  if (← dialect).hasTypes then return (← optionally p).toList else return []

/-- The end of a statement: a semicolon, or a place where one is understood. -/
def endStatement : Reader Unit := do
  let found ← trivia
  match (← rest).head? with
  | none => pure ()
  | some ';' => advance 1
  | some '}' => pure ()
  | some _ => guardThat found.lineEnded

/-- A block of statements. -/
def block (R : Rules) : Reader Tree := do
  let start ← tokenStart
  symbol "\x7b"
  let body ← manyOf R.statement
  symbol "\x7d"
  finish .plain start body

/-! ### Texts with expressions -/

/-- The length of the plain text of a template before an expression or the end. -/
def templateLength : Nat → List Char → Option Nat
  | n, '`' :: _ => some n
  | n, '$' :: '{' :: _ => some n
  | n, '\\' :: _ :: rest => templateLength (n + 2) rest
  | n, _ :: rest => templateLength (n + 1) rest
  | _, [] => none

/-- The plain text of a template. -/
def templateText : Reader Unit := do
  match templateLength 0 (← rest) with
  | some n => advance n
  | none => failure

/-- An expression inside a template, with the plain text after it. -/
def substitution (inner : Reader Tree) : Reader Tree := do
  let start ← here
  exactly "$\x7b"
  let t ← inner
  symbol "\x7d"
  let part ← finish .plain start [t]
  templateText
  return part

/-- A template, with the rule for what stands between its braces. -/
def templateOf (kind : Kind) (inner : Reader Tree) : Reader Tree := do
  let start ← tokenStart
  exactly "`"
  templateText
  let parts ← manyOf (substitution inner)
  exactly "`"
  finish kind start parts

/-! ### Names of members -/

/-- A name in brackets that is computed. -/
def computedName (R : Rules) : Reader Tree := do
  let start ← tokenStart
  symbol "["
  let t ← R.assignment {}
  symbol "]"
  finish .plain start [t]

/-- The name of a member: any word, a text, a number, a private or a computed name. -/
def memberName (R : Rules) : Reader Tree := do
  match ← peek with
  | some '[' => computedName R
  | some '#' => privateName
  | some '\'' => stringLiteral
  | some '"' => stringLiteral
  | some c => if c.isDigit || c == '.' then numberLiteral else anyName
  | none => failure

/-- Whether the next character can start the name of a member. -/
def memberNameFollows : Reader Bool := do
  match ← peek with
  | some c => return isNameStart c || c.isDigit || ['[', '#', '\'', '"', '*', '\\'].contains c
  | none => return false

/-- Reads a word that modifies a member, if the name of a member follows it. -/
def modifier (words : List String) : Reader Unit := do
  let (w, _) ← nameChars
  guardThat (words.contains (String.ofList w))
  guardThat (← memberNameFollows)

/-! ### Patterns -/

/-- A default value, after its equals sign. -/
def defaultValue (R : Rules) : Reader (List Tree) := do
  if ← lookingAt (symbolNotBefore "=" ['=', '>']) then
    symbol "="
    return [← R.assignment {}]
  return []

/-- A pattern with an optional default value. -/
def patternWithDefault (R : Rules) : Reader Tree := do
  let start ← tokenStart
  let p ← R.pattern
  match ← defaultValue R with
  | [] => return p
  | more => finish .plain start (p :: more)

/-- The rest of a list of names. -/
def restPattern (R : Rules) : Reader Tree := do
  let start ← tokenStart
  symbol "..."
  let p ← R.pattern
  finish .plain start [p]

/-- A member of an object pattern. -/
def patternMember (R : Rules) : Reader Tree := do
  let start ← tokenStart
  if ← nextIs "..." then restPattern R
  else
    let key ← memberName R
    if ← takeSymbol ":" then
      let p ← patternWithDefault R
      finish .plain start [key, p]
    else
      guardThat (key.kind == .identifier)
      let value ← defaultValue R
      finish .plain start (key :: value)

/-- An item of an array pattern; it may be left out. -/
def patternItem (R : Rules) : Reader (List Tree) := do
  if ← nextIs "," then return []
  else if ← nextIs "..." then return [← restPattern R]
  else return [← patternWithDefault R]

/-- What binds names. -/
def pattern (R : Rules) : Reader Tree := do
  let start ← tokenStart
  if ← takeSymbol "\x7b" then
    let members ← bracketed "\x7d" (patternMember R)
    finish .plain start members
  else if ← takeSymbol "[" then
    let items ← bracketed "]" (patternItem R)
    finish .plain start items.flatten
  else name

/-! ### Parameters -/

/-- A type after a colon. -/
def typeMark (R : Rules) : Reader Tree := do
  let start ← tokenStart
  symbol ":"
  let t ← R.type
  finish .plain start [t]

/-- A decorator: names with dots, and arguments at most once. -/
def decorator (R : Rules) (call : Tree → Point → Reader Tree) : Reader Tree := do
  let start ← tokenStart
  symbol "@"
  let inner ← tokenStart
  if ← nextIs "(" then
    symbol "("
    let t ← R.expression {}
    symbol ")"
    finish .plain start [t]
  else
    let first ← anyName
    let path ← manyOf (do symbol "."; anyName)
    let target ← path.foldlM (fun t p => finishMember inner t p) first
    let whole ← if ← nextIs "(" then call target inner else pure target
    finish .plain start [whole]
where
  /-- A member of a part; it ends where its name ends. -/
  finishMember (start : Point) (t p : Tree) : Reader Tree :=
    return .make .member start p.stop [t, p.withRole .property]

/-- Words that modify a parameter. -/
def parameterModifiers : List String :=
  ["public", "private", "protected", "readonly", "override"]

/-- A parameter. -/
def parameter (R : Rules) (decorators : Reader (List Tree)) : Reader Tree := do
  let start ← tokenStart
  let marks ← decorators
  if (← dialect).hasTypes then
    let _ ← manyOf (do
      let (w, _) ← nameChars
      guardThat (parameterModifiers.contains (String.ofList w))
      guardThat (← lookingAt (either (do symbol "\x7b") (either (do symbol "[") (do
        let _ ← nameChars)))))
  let _ ← takeSymbol "..."
  let p ← either R.pattern (do
    let t ← anyName
    guardThat (← dialect).hasTypes
    return t)
  let kind ←
    if (← dialect).hasTypes then do
      let _ ← takeSymbol "?"
      pure (← optionally (typeMark R)).toList
    else pure []
  let value ← defaultValue R
  if marks.isEmpty && kind.isEmpty && value.isEmpty then finish .plain start [p]
  else finish .plain start (marks ++ p :: kind ++ value)

/-- The parameters of a function, with their parentheses. -/
def parameters (R : Rules) (decorators : Reader (List Tree)) : Reader Tree := do
  let start ← tokenStart
  symbol "("
  let ps ← bracketed ")" (parameter R decorators)
  finish .plain start ps

end Script

end DesignRegistry
