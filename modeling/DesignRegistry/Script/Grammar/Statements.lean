/-
**The grammar of scripts: statements.**

A script is a list of statements: declarations, control flow, imports, exports and expressions.  A
statement ends at a semicolon, before a closing brace, at the end of the script or where a line
ends.

Main definitions

* `Script.variableStatement`, `Script.importStatement`, `Script.exportRule` — declarations of names;
* `Script.typeDeclaration` — declarations that only scripts with types have;
* `Script.statementRule` — statements.
-/
import DesignRegistry.Script.Grammar.Expressions

namespace DesignRegistry

namespace Script

open Reader

/-! ### Variables -/

/-- A variable with its type and its value. -/
def variableRule (R : Rules) (c : Context) : Reader Tree := do
  let start ← tokenStart
  let n ← R.pattern
  let kind ←
    if (← dialect).hasTypes then do
      let _ ← optionally (symbolNotBefore "!" ['='])
      pure (← optionally (typeMark R)).toList
    else pure []
  let value ←
    if ← lookingAt (symbolNotBefore "=" ['=', '>']) then do
      symbol "="
      pure [← R.assignment c]
    else pure []
  finish .variable start (n.withRole .name :: kind ++ value)

/-- Several variables. -/
def variableList (R : Rules) (c : Context) : Nat → Reader (List Tree)
  | 0 => failure
  | n + 1 => do
    let v ← variableRule R c
    if ← takeSymbol "," then return v :: (← variableList R c n) else return [v]

/-- A word that declares variables. -/
def variableWord : Reader Unit := do
  let (w, _) ← nameChars
  let word := String.ofList w
  guardThat (["var", "let", "const"].contains word)
  match ← peek with
  | some c => guardThat (isNameStart c || c == '[' || c == '{' || c == '\\')
  | none => failure
  guardThat (word != "let" || !((← nextWordIs "in") || (← nextWordIs "instanceof")))

/-- A declaration of variables. -/
def variableStatement (R : Rules) : Reader Tree := do
  let start ← tokenStart
  variableWord
  let vs ← variableList R {} ((← rest).length + 1)
  let t ← finish .plain start vs
  endStatement
  return t

/-! ### Control flow -/

/-- An expression in parentheses after a word. -/
def condition (R : Rules) : Reader Tree := do
  let start ← tokenStart
  symbol "("
  let t ← R.expression {}
  symbol ")"
  finish .parenthesized start [t]

/-- A choice between statements. -/
def ifRule (R : Rules) : Reader Tree := do
  let start ← tokenStart
  keyword "if"
  let test ← condition R
  let yes ← R.statement
  let no ← if ← takeKeyword "else" then pure [← R.statement] else pure []
  finish .plain start (test :: yes :: no)

/-- The head of a loop over values or keys. -/
def eachHead (R : Rules) : Reader (List Tree) := do
  let first ←
    either (do variableWord; R.pattern) (return (← R.operand {}).1)
  let kind ← whenTyped (typeMark R)
  either (keyword "of") (keyword "in")
  let t ← R.expression {}
  symbol ")"
  return first :: kind ++ [t]

/-- The head of a loop with start, test and step. -/
def stepHead (R : Rules) : Reader (List Tree) := do
  let first ←
    if ← nextIs ";" then pure []
    else
      either (do
        variableWord
        variableList R { noIn := true } ((← rest).length + 1))
        (return [← R.expression { noIn := true }])
  symbol ";"
  let test ← if ← nextIs ";" then pure [] else pure [← R.expression {}]
  symbol ";"
  let step ← if ← nextIs ")" then pure [] else pure [← R.expression {}]
  symbol ")"
  return first ++ test ++ step

/-- A loop over values, keys or steps. -/
def forRule (R : Rules) : Reader Tree := do
  let start ← tokenStart
  keyword "for"
  let _ ← takeKeyword "await"
  symbol "("
  let head ← either (eachHead R) (stepHead R)
  let body ← R.statement
  finish .plain start (head ++ [body])

/-- A loop with a test before or after its body. -/
def whileRule (R : Rules) : Reader Tree := do
  let start ← tokenStart
  if ← takeKeyword "while" then
    let test ← condition R
    let body ← R.statement
    finish .plain start [test, body]
  else
    keyword "do"
    let body ← R.statement
    keyword "while"
    let test ← condition R
    let _ ← takeSymbol ";"
    finish .plain start [body, test]

/-- A case of a choice by value. -/
def caseRule (R : Rules) : Reader Tree := do
  let start ← tokenStart
  let test ←
    if ← takeKeyword "default" then pure []
    else do
      keyword "case"
      pure [← R.expression {}]
  symbol ":"
  let body ← manyOf R.statement
  finish .plain start (test ++ body)

/-- A choice by value. -/
def switchRule (R : Rules) : Reader Tree := do
  let start ← tokenStart
  keyword "switch"
  let test ← condition R
  symbol "\x7b"
  let cases ← manyOf (caseRule R)
  symbol "\x7d"
  finish .plain start (test :: cases)

/-- A block whose failures are handled. -/
def tryRule (R : Rules) : Reader Tree := do
  let start ← tokenStart
  keyword "try"
  let body ← block R
  let handler ←
    if ← takeKeyword "catch" then do
      let bound ←
        if ← takeSymbol "(" then do
          let p ← R.pattern
          let kind ← whenTyped (typeMark R)
          symbol ")"
          pure (p :: kind)
        else pure []
      pure (bound ++ [← block R])
    else pure []
  let final ← if ← takeKeyword "finally" then pure [← block R] else pure []
  finish .plain start (body :: handler ++ final)

/-- A statement that leaves its surroundings, possibly with a value. -/
def leaveRule (R : Rules) : Reader Tree := do
  let start ← tokenStart
  let (w, _) ← nameChars
  let word := String.ofList w
  guardThat (["return", "throw", "break", "continue", "debugger"].contains word)
  let value ←
    if word == "debugger" then pure []
    else if ← lookingAt endStatement then pure []
    else if word == "break" || word == "continue" then pure [← name]
    else pure [← R.expression {}]
  guardThat (word != "throw" || !value.isEmpty)
  let t ← finish .plain start value
  endStatement
  return t

/-- A statement inside the members of a value. -/
def withRule (R : Rules) : Reader Tree := do
  let start ← tokenStart
  keyword "with"
  let t ← condition R
  let body ← R.statement
  finish .plain start [t, body]

/-! ### Imports -/

/-- What a clause after the source tells about it. -/
def importAttributes (R : Rules) : Reader (List Tree) := do
  let found ← optionally (do
    let start ← tokenStart
    either (keyword "with") (do guardThat (← onSameLine); keyword "assert")
    guardThat (← nextIs "\x7b")
    let t ← objectRule R
    finish .plain start [t])
  return found.toList

/-- The source that an import or export names, and what is told about it. -/
def sourceClause (R : Rules) : Reader (List Tree) := do
  keyword "from"
  let s ← stringLiteral
  let more ← importAttributes R
  return s.withRole .source :: more

/-- A word that tells that only types are meant. -/
def typeOnly (next : Reader Unit) : Reader Unit := do
  typesOnly
  either (keyword "type") (keyword "typeof")
  guardThat (← lookingAt next)

/-- A name or a text. -/
def nameOrText : Reader Tree := either stringLiteral anyName

/-- A name that is imported or exported, with the name it gets. -/
def specifier : Reader Tree := do
  let start ← tokenStart
  let _ ← optionally (typeOnly (do
    guardThat !(← nextWordIs "as")
    let _ ← nameOrText))
  let n ← nameOrText
  let renamed ←
    if ← takeKeyword "as" then pure [(← nameOrText).withRole .newName] else pure []
  finish .importSpecifier start (n.withRole .name :: renamed)

/-- Names in braces. -/
def specifiers : Reader Tree := do
  let start ← tokenStart
  symbol "\x7b"
  let names ← bracketed "\x7d" specifier
  finish .namedImports start names

/-- All names of a script under one name. -/
def namespaceImport : Reader Tree := do
  let start ← tokenStart
  symbol "*"
  keyword "as"
  let n ← name
  finish .namespaceImport start [n]

/-- The names that an import binds. -/
def importClause : Reader Tree := do
  let start ← tokenStart
  let several : Reader Tree := either namespaceImport specifiers
  match ← optionally name with
  | some n =>
    let more ← if ← takeSymbol "," then pure [← several] else pure []
    finish .importClause start (n :: more)
  | none =>
    let t ← several
    finish .importClause start [t]

/-- A name bound to a member or to a required script. -/
def importEquals (R : Rules) : Reader Tree := do
  typesOnly
  let start ← tokenStart
  let n ← name
  symbol "="
  if ← lookingAt (do keyword "require"; symbol "(") then
    keyword "require"
    symbol "("
    let s ← stringLiteral
    symbol ")"
    finish .plain start [n, s]
  else
    let first ← name
    let _ ← manyOf (do symbol "."; anyName)
    let _ := R
    finish .plain start [n, first]

/-- An import. -/
def importStatement (R : Rules) : Reader Tree := do
  let start ← tokenStart
  keyword "import"
  let parts ←
    either (do
      let s ← stringLiteral
      let more ← importAttributes R
      return s.withRole .source :: more)
    (do
      let _ ← optionally (typeOnly (either (symbol "\x7b") (either (symbol "*") (do
        let (w, _) ← nameChars
        guardThat (w != "from".toList || (← nextWordIs "from"))))))
      either (return [← importEquals R]) (do
        let clause ← importClause
        let source ← sourceClause R
        return clause :: source))
  let t ← finish .importStatement start parts
  endStatement
  return t

/-! ### Declarations with types -/

/-- A member of an enumeration. -/
def enumMember (R : Rules) : Reader Tree := do
  let start ← tokenStart
  let key ← memberName R
  let value ← defaultValue R
  finish .plain start (key :: value)

/-- An enumeration. -/
def enumRule (R : Rules) : Reader Tree := do
  let start ← tokenStart
  let _ ← takeKeyword "const"
  keyword "enum"
  let n ← name
  symbol "\x7b"
  let members ← bracketed "\x7d" (enumMember R)
  finish .plain start (n :: members)

/-- An interface. -/
def interfaceRule (R : Rules) : Reader Tree := do
  let start ← tokenStart
  keyword "interface"
  let n ← name
  let taken ← whenTyped (typeParameters R)
  let bases ←
    if ← takeKeyword "extends" then heritageTypes R ((← rest).length + 1) else pure []
  let body ← objectType R
  finish .plain start (n :: taken ++ bases ++ [body])

/-- A name for a type. -/
def aliasRule (R : Rules) : Reader Tree := do
  let start ← tokenStart
  keyword "type"
  guardThat (← onSameLine)
  let n ← name
  let taken ← whenTyped (typeParameters R)
  symbol "="
  let t ← R.type
  let whole ← finish .plain start (n :: taken ++ [t])
  endStatement
  return whole

/-- A name space, or the declaration of a script's contents. -/
def moduleRule (R : Rules) : Reader Tree := do
  let start ← tokenStart
  either (keyword "namespace") (keyword "module")
  guardThat (← onSameLine)
  let n ← either stringLiteral (do
    let s ← tokenStart
    let first ← name
    let _ ← manyOf (do symbol "."; anyName)
    finish .plain s [first])
  if ← nextIs "\x7b" then
    let body ← block R
    finish .plain start [n, body]
  else
    let t ← finish .plain start [n]
    endStatement
    return t

/-- A declaration of something that is defined elsewhere. -/
def declareRule (R : Rules) : Reader Tree := do
  let start ← tokenStart
  keyword "declare"
  guardThat (← onSameLine)
  if ← lookingAt (do keyword "global"; guardThat (← nextIs "\x7b")) then
    keyword "global"
    let body ← block R
    finish .plain start [body]
  else
    guardThat (["function", "class", "const", "let", "var", "enum", "interface", "type",
      "namespace", "module", "abstract", "async", "import"].contains
        (String.ofList (← lookWord)))
    let t ← R.statement
    finish .plain start [t]
where
  /-- The next word. -/
  lookWord : Reader (List Char) := fun i =>
    match nameChars i with
    | some ((w, _), _) => some (w, i)
    | none => some ([], i)

/-- A declaration that only scripts with types have. -/
def typeDeclaration (R : Rules) : Reader Tree := do
  typesOnly
  either (interfaceRule R) (either (aliasRule R) (either (enumRule R) (either (moduleRule R)
    (declareRule R))))

/-! ### Exports -/

/-- An expression that a class extends. -/
def extended (R : Rules) : Reader Tree := do
  let start ← tokenStart
  let bound := (← rest).length + 1
  let t ← primary R {} bound
  return (← suffixes R start bound t).1

/-- Whether a declaration comes next.  Words that are also names start one only before another
word, and a module may be named by a text. -/
def declarationFollows : Reader Bool := do
  if ← nextIs "@" then return true
  let typed := (← dialect).hasTypes
  lookingAt do
    let (w, _) ← nameChars
    let word := String.ofList w
    if ["function", "class", "const", "let", "var"].contains word
        || (typed && ["enum", "import"].contains word) then return ()
    guardThat (word == "async" || (typed
      && ["interface", "type", "namespace", "module", "declare", "abstract"].contains word))
    let next ← peek
    guardThat (next.any fun c => isNameStart c || (word == "module" && (c == '"' || c == '\'')))

/-- What an export makes the default. -/
def defaultExport (R : Rules) : Reader Tree := do
  if (← nextWordIs "function")
      || (← lookingAt (do keyword "async"; keyword "function")) then
    functionRule R (!(← dialect).hasTypes)
  else if (← nextWordIs "class") || (← nextIs "@")
      || (← lookingAt (do typesOnly; keyword "abstract"; keyword "class")) then
    classRule R (extended R)
  else if ← lookingAt (do typesOnly; keyword "interface"; let _ ← name) then interfaceRule R
  else
    let t ← R.assignment {}
    endStatement
    return t

/-- What an export names, after its word. -/
def exportParts (R : Rules) : Reader (List Tree) := do
  if ← takeKeyword "default" then return [← defaultExport R]
  let _ ← optionally (typeOnly (either (symbol "\x7b") (symbol "*")))
  if ← takeSymbol "*" then
    let n ← if ← takeKeyword "as" then do
        let s ← tokenStart
        let t ← nameOrText
        pure [← finish .plain s [t]]
      else pure []
    let source ← sourceClause R
    endStatement
    return n ++ source
  else if ← nextIs "\x7b" then
    let names ← specifiers
    let source ← if ← nextWordIs "from" then sourceClause R else pure []
    endStatement
    return names :: source
  else if (← dialect).hasTypes && (← nextIs "=") then
    symbol "="
    let t ← R.expression {}
    endStatement
    return [t]
  else if ← lookingAt (do typesOnly; keyword "as"; keyword "namespace") then
    keyword "as"
    keyword "namespace"
    let n ← name
    endStatement
    return [n]
  else
    guardThat (← declarationFollows)
    return [← R.statement]

/-- An export. -/
def exportRule (R : Rules) : Reader Tree := do
  let start ← tokenStart
  let marks ← decorators R
  keyword "export"
  let parts ← exportParts R
  finish .exportStatement start (marks ++ parts)

/-! ### Statements -/

/-- A statement with a name. -/
def labelled (R : Rules) : Reader Tree := do
  let start ← tokenStart
  let n ← name
  symbol ":"
  let t ← R.statement
  finish .plain start [n, t]

/-- An expression as a statement. -/
def expressionStatement (R : Rules) : Reader Tree := do
  let start ← tokenStart
  let t ← R.expression {}
  let whole ← finish .plain start [t]
  endStatement
  return whole

/-- A statement that starts with one of the words that name its form. -/
def statementByWord (R : Rules) (word : String) : Option (Reader Tree) :=
  match word with
  | "var" => some (variableStatement R)
  | "if" => some (ifRule R)
  | "for" => some (forRule R)
  | "while" => some (whileRule R)
  | "do" => some (whileRule R)
  | "switch" => some (switchRule R)
  | "try" => some (tryRule R)
  | "with" => some (withRule R)
  | "return" => some (leaveRule R)
  | "throw" => some (leaveRule R)
  | "break" => some (leaveRule R)
  | "continue" => some (leaveRule R)
  | "debugger" => some (leaveRule R)
  | "class" => some (classRule R (extended R))
  | "export" => some (exportRule R)
  | _ => none

/-- Whether a word starts a declaration with types when another word follows it. -/
def declaresTypes (word : String) : Bool :=
  ["interface", "type", "enum", "namespace", "module", "declare"].contains word

/-- A statement that starts with a word. -/
def wordStatement (R : Rules) (word : String) : Reader Tree :=
  let other : Reader Tree := either (labelled R) (expressionStatement R)
  match statementByWord R word with
  | some p => p
  | none =>
    if word = "const" then either (do typesOnly; enumRule R) (variableStatement R)
    else if word = "let" then either (variableStatement R) other
    else if word = "function" then do functionRule R (!(← dialect).hasTypes)
    else if word = "async" then do
      if ← lookingAt (do keyword "async"; guardThat (← onSameLine); keyword "function") then
        functionRule R (!(← dialect).hasTypes)
      else other
    else if word = "import" then do
      if ← lookingAt (do keyword "import"; either (symbol "(") (symbol ".")) then
        expressionStatement R
      else importStatement R
    else if word = "abstract" then
      either (do typesOnly; classRule R (extended R)) other
    else if declaresTypes word then either (typeDeclaration R) other
    else other

/-- A statement. -/
def statementRule (R : Rules) : Reader Tree := do
  match ← peek with
  | some '{' => block R
  | some ';' =>
    let start ← here
    advance 1
    finish .plain start []
  | some '@' => either (classRule R (extended R)) (exportRule R)
  | some c =>
    if isNameStart c then
      let i ← get
      match nameChars i with
      | some ((w, _), _) => wordStatement R (String.ofList w)
      | none => failure
    else expressionStatement R
  | none => failure

end Script

end DesignRegistry
