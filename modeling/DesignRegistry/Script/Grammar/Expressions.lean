/-
**The grammar of scripts: expressions.**

An expression is built from operands: literals, names, functions, classes, collections, elements and
parts in parentheses, followed by member names, indexes and arguments.  Operators join operands; how
tightly they bind decides nothing here, so the operands that operators join form one part.

Parentheses are read once: their content is taken as a list whose items may carry types, and an
arrow after the closing parenthesis makes the list the parameters of a function.

Main definitions

* `Script.primary`, `Script.suffixes` — operands, and what may follow them;
* `Script.operandRule`, `Script.assignmentRule`, `Script.expressionRule` — operands with the
  operators before them, expressions up to a comma, and expressions.
-/
import DesignRegistry.Script.Grammar.Elements

namespace DesignRegistry

namespace Script

open Reader

/-! ### Arguments -/

/-- An item that may be spread over a list. -/
def spreadable (R : Rules) : Reader Tree := do
  if ← nextIs "..." then
    let start ← tokenStart
    symbol "..."
    let t ← R.assignment {}
    finish .spread start [t]
  else R.assignment {}

/-- The arguments of a call. -/
def callArguments (R : Rules) : Reader Tree := do
  let start ← tokenStart
  symbol "("
  let args ← bracketed ")" (spreadable R)
  finish .arguments start args

/-- A call of a part with the arguments that come next. -/
def callOf (R : Rules) (target : Tree) (start : Point) : Reader Tree := do
  let args ← callArguments R
  finish .call start [target.withRole .callee, args]

/-- The decorators that come next. -/
def decorators (R : Rules) : Reader (List Tree) := manyOf (decorator R (callOf R))

/-! ### Functions -/

/-- The parts of a function after its name. -/
def functionParts (R : Rules) : Reader (List Tree) := do
  let taken ← whenTyped (typeParameters R)
  let ps ← parameters R (decorators R)
  let result ← whenTyped (resultType R)
  return taken ++ ps :: result

/-- A function with its word; the name and, where types may be written, the body may be left out. -/
def functionRule (R : Rules) (bodyNeeded : Bool) : Reader Tree := do
  let start ← tokenStart
  let _ ← takeKeyword "async"
  keyword "function"
  let _ ← takeSymbol "*"
  let n ← (return (← optionally name).toList.map (·.withRole .name))
  let parts ← functionParts R
  if (← nextIs "\x7b") || bodyNeeded then
    let body ← block R
    finish .function start (n ++ parts ++ [body])
  else
    typesOnly
    let t ← finish .plain start (n ++ parts)
    endStatement
    return t

/-- The body of a function after its arrow. -/
def arrowBody (R : Rules) (c : Context) : Reader Tree := do
  if ← nextIs "\x7b" then block R else R.assignment c

/-- The arrow of a function and its body, after the parameters. -/
def arrowFrom (R : Rules) (c : Context) (start : Point) (parts : List Tree) : Reader Tree := do
  symbol "=>"
  let body ← arrowBody R c
  finish .function start (parts ++ [body])

/-! ### Parentheses -/

/-- An item of a list in parentheses, and whether it can only be a parameter. -/
def coverItem (R : Rules) : Reader (Tree × Bool) := do
  let start ← tokenStart
  let isRest ← takeSymbol "..."
  let t ← R.assignment {}
  if (← dialect).hasTypes then
    let mark ← optionally (do
      symbol "?"
      guardThat ((← nextIs ":") || (← nextIs ",") || (← nextIs ")") || (← nextIs "=")))
    let kind ← (return (← optionally (typeMark R)).toList)
    let value ← if mark.isSome || !kind.isEmpty then defaultValue R else pure []
    let onlyParameter := isRest || mark.isSome || !kind.isEmpty
    if onlyParameter then return (← finish .plain start (t :: kind ++ value), true)
    else return (t, false)
  else if isRest then return (← finish .plain start [t], true)
  else return (t, false)

/-- The items between parentheses, and whether they can only be parameters.  A comma at the end, or
no item at all, is only possible for parameters. -/
def coverItems (R : Rules) : Nat → Reader (List Tree × Bool)
  | 0 => failure
  | n + 1 => do
    if ← takeSymbol ")" then return ([], true)
    let (t, only) ← coverItem R
    if ← takeSymbol "," then
      let (ts, more) ← coverItems R n
      return (t :: ts, only || more)
    symbol ")"
    return ([t], only)

/-- A part in parentheses, or a function whose parameters they hold. -/
def parenthesizedRule (R : Rules) (c : Context) : Reader Tree := do
  let start ← tokenStart
  symbol "("
  let first ← tokenStart
  let (items, onlyParameters) ← coverItems R ((← rest).length + 1)
  let list ← finish .plain start items
  let result ←
    if (← dialect).hasTypes && !c.noReturnType then
      optionally (do
        let t ← resultType R
        guardThat (← nextIs "=>")
        return t)
    else pure none
  if ← nextIs "=>" then arrowFrom R c start (list :: result.toList)
  else
    guardThat !onlyParameters
    match items with
    | [t] => return .make .parenthesized start list.stop [t]
    | _ => return .make .parenthesized start list.stop [.make .plain first list.stop items]

/-- A function that takes types, in a dialect that has them. -/
def genericArrow (R : Rules) (c : Context) : Reader Tree := do
  let start ← tokenStart
  let taken ← typeParameters R
  let ps ← parameters R (pure [])
  let result ← (return (← optionally (resultType R)).toList)
  arrowFrom R c start (taken :: ps :: result)

/-! ### Collections -/

/-- An item of an array; it may be left out. -/
def arrayItem (R : Rules) : Reader (List Tree) := do
  if ← nextIs "," then return [] else return [← spreadable R]

/-- An array. -/
def arrayRule (R : Rules) : Reader Tree := do
  let start ← tokenStart
  symbol "["
  let items ← bracketed "]" (arrayItem R)
  finish .plain start items.flatten

/-- A method after its name. -/
def methodFrom (R : Rules) (start : Point) (parts : List Tree) (key : Tree) : Reader Tree := do
  let rest ← functionParts R
  let body ← block R
  finish .method start (parts ++ key.withRole .name :: rest ++ [body])

/-- A member of an object. -/
def objectMember (R : Rules) : Reader Tree := do
  let start ← tokenStart
  if ← nextIs "..." then spreadable R
  else
    let _ ← manyOf (modifier ["get", "set", "async", "static"])
    let starred ← takeSymbol "*"
    let key ← memberName R
    if (← nextIs "(") || (← nextIs "<") then methodFrom R start [] key
    else
      guardThat (!starred)
      if ← takeSymbol ":" then
        let t ← R.assignment {}
        finish .plain start [key, t]
      else
        guardThat (key.kind == .identifier)
        let value ← defaultValue R
        finish .plain start value

/-- An object. -/
def objectRule (R : Rules) : Reader Tree := do
  let start ← tokenStart
  symbol "\x7b"
  let members ← bracketed "\x7d" (objectMember R)
  finish .plain start members

/-! ### Classes -/

/-- Words that modify a member of a class. -/
def classModifiers : List String :=
  ["static", "async", "get", "set", "accessor", "declare", "abstract", "public", "private",
   "protected", "readonly", "override"]

/-- A block that runs when a class is made. -/
def staticBlock (R : Rules) : Reader Tree := do
  keyword "static"
  block R

/-- A signature of a class that ranges over names. -/
def classIndex (R : Rules) : Reader Tree := do
  typesOnly
  let _ ← manyOf (modifier classModifiers)
  let t ← indexMember R
  endMember
  return t

/-- A member of a class with a name. -/
def classNamed (R : Rules) : Reader Tree := do
  let start ← tokenStart
  let marks ← decorators R
  let _ ← manyOf (modifier classModifiers)
  let _ ← takeSymbol "*"
  let key ← memberName R
  let typed := (← dialect).hasTypes
  if typed then
    let _ ← either (takeSymbol "?") (pure false)
    let _ ← optionally (symbolNotBefore "!" ['='])
  if (← nextIs "(") || (typed && (← nextIs "<")) then
    let parts ← functionParts R
    if ← nextIs "\x7b" then
      let body ← block R
      finish .method start (marks ++ key.withRole .name :: parts ++ [body])
    else
      guardThat typed
      let t ← finish .plain start (marks ++ key :: parts)
      endMember
      return t
  else
    let kind ← whenTyped (typeMark R)
    let value ← defaultValue R
    let t ← finish .plain start (marks ++ key :: kind ++ value)
    endStatement
    return t

/-- A member of a class; a lone semicolon is none. -/
def classMember (R : Rules) : Reader (List Tree) := do
  if ← takeSymbol ";" then return []
  guardThat !(← nextIs "\x7d")
  return [← either (staticBlock R) (either (classIndex R) (classNamed R))]

/-- A type that a class extends or implements. -/
def heritageTypes (R : Rules) : Nat → Reader (List Tree)
  | 0 => failure
  | n + 1 => do
    let t ← R.type
    if ← takeSymbol "," then return t :: (← heritageTypes R n) else return [t]

/-- What a class extends and implements; `target` reads the extended expression. -/
def heritage (R : Rules) (target : Reader Tree) : Reader (List Tree) := do
  let extended ←
    if ← takeKeyword "extends" then do
      let t ← target
      pure (t :: (← whenTyped (typeArguments R)))
    else pure []
  let implemented ←
    if (← dialect).hasTypes then
      if ← takeKeyword "implements" then heritageTypes R ((← rest).length + 1) else pure []
    else pure []
  return extended ++ implemented

/-- A class; its name may be left out. -/
def classRule (R : Rules) (target : Reader Tree) : Reader Tree := do
  let start ← tokenStart
  let marks ← decorators R
  let _ ← optionally (do typesOnly; keyword "abstract"; guardThat (← nextWordIs "class"))
  keyword "class"
  let n ← (return (← optionally (do
    guardThat !((← nextWordIs "extends") || ((← dialect).hasTypes && (← nextWordIs "implements")))
    name)).toList)
  let taken ← whenTyped (typeParameters R)
  let bases ← heritage R target
  symbol "\x7b"
  let members ← manyOf (classMember R)
  symbol "\x7d"
  finish .plain start (marks ++ n.map (·.withRole .name) ++ taken ++ bases ++ members.flatten)

/-! ### Operands -/

/-- A member of a part, after the dot. -/
def memberOf (start : Point) (t : Tree) : Reader Tree := do
  let p ← either privateName anyName
  finish .member start [t, p.withRole .property]

/-- An index in brackets. -/
def indexOf (R : Rules) (start : Point) (t : Tree) : Reader Tree := do
  symbol "["
  let i ← R.expression {}
  symbol "]"
  finish .plain start [t, i]

/-- The question mark and dot before a member that may be absent. -/
def optionalDot : Reader Unit := do
  symbol "?."
  match (← rest).head? with
  | some c => guardThat (!c.isDigit)
  | none => pure ()

/-- A template as an expression. -/
def templateRule (R : Rules) : Reader Tree := do
  let _ ← skipTrivia
  templateOf .template (R.expression {})

/-- A call with types given to the function. -/
def typedCall (R : Rules) (start : Point) (t : Tree) : Reader Tree := do
  typesOnly
  let given ← typeArguments R
  match ← peek with
  | some '(' =>
    let args ← callArguments R
    finish .call start [t.withRole .callee, given, args]
  | some '`' =>
    let text ← templateRule R
    finish .call start [t.withRole .callee, given, text]
  | some c =>
    guardThat ([')', ']', ',', ';', ':', '}', '='].contains c)
    finish .plain start [t, given]
  | none => finish .plain start [t, given]

/-- One suffix of an operand, and whether the result can be assigned to. -/
def suffix (R : Rules) (start : Point) (t : Tree) : Reader (Tree × Bool) := do
  match ← peek with
  | some '.' =>
    guardThat !(startsWith "..".toList (← rest))
    symbol "."
    return (← memberOf start t, true)
  | some '[' => return (← indexOf R start t, true)
  | some '(' => return (← callOf R t start, false)
  | some '`' =>
    let text ← templateRule R
    return (← finish .call start [t.withRole .callee, text], false)
  | some '?' =>
    optionalDot
    match ← peek with
    | some '(' => return (← callOf R t start, false)
    | some '[' => return (← indexOf R start t, false)
    | some '<' => return (← typedCall R start t, false)
    | _ => return (← memberOf start t, false)
  | some '!' =>
    typesOnly
    guardThat (← onSameLine)
    symbolNotBefore "!" ['=']
    return (← finish .plain start [t], true)
  | some '<' => return (← typedCall R start t, false)
  | _ => failure

/-- An operand with its suffixes, at most `n` of them. -/
def suffixes (R : Rules) (start : Point) : Nat → Tree × Bool → Reader (Tree × Bool)
  | 0, t => pure t
  | n + 1, t => do
    match ← optionally (suffix R start t.1) with
    | none => return t
    | some u => suffixes R start n u

/-- The suffixes that a constructor may have before its arguments. -/
def constructorSuffixes (R : Rules) (start : Point) : Nat → Tree → Reader Tree
  | 0, t => pure t
  | n + 1, t => do
    match ← peek with
    | some '.' =>
      symbol "."
      constructorSuffixes R start n (← memberOf start t)
    | some '[' => constructorSuffixes R start n (← indexOf R start t)
    | _ => return t

/-- A use of a constructor; `target` reads the constructor. -/
def newRule (R : Rules) (target : Reader Tree) : Reader Tree := do
  let start ← tokenStart
  keyword "new"
  if ← takeSymbol "." then
    let _ ← anyName
    finish .plain start []
  else
    let inner ← tokenStart
    let t ← constructorSuffixes R inner ((← rest).length + 1) (← target)
    let given ← whenTyped (typeArguments R)
    let args ← if ← nextIs "(" then pure [← callArguments R] else pure []
    finish .plain start (t :: given ++ args)

/-- What starts with the word `import`: a call that loads a script, or data about this one. -/
def importRule (R : Rules) : Reader Tree := do
  let start ← tokenStart
  keyword "import"
  let word ← finish .plain start []
  if ← nextIs "(" then callOf R word start
  else
    symbol "."
    let _ ← anyName
    finish .plain start []

/-- What starts with the word `async`: a function, or the word as a name. -/
def asyncRule (R : Rules) (c : Context) : Reader Tree := do
  let start ← tokenStart
  either (functionRule R true) (do
    keyword "async"
    let word ← finish .identifier start []
    match ← peek with
    | some '(' =>
      symbol "("
      let inner ← here
      let (items, onlyParameters) ← coverItems R ((← rest).length + 1)
      let list : Tree := .make .arguments ⟨inner.offset - 1, inner.row, inner.column - 1⟩
        (← here).offset items
      let result ← whenTyped (do
        let t ← resultType R
        guardThat (← nextIs "=>")
        return t)
      if ← nextIs "=>" then
        arrowFrom R c start (.make .plain list.start list.stop items :: result)
      else
        guardThat (!onlyParameters || items.isEmpty)
        return .make .call start list.stop [word.withRole .callee, list]
    | some '<' =>
      either (do
        typesOnly
        let taken ← typeParameters R
        let ps ← parameters R (pure [])
        let result ← (return (← optionally (resultType R)).toList)
        arrowFrom R c start (taken :: ps :: result)) (pure word)
    | _ =>
      either (do
        let p ← name
        arrowFrom R c start [p]) (do
          if ← nextIs "=>" then arrowFrom R c start [word] else return word))

/-- A name, or a function with the name as its only parameter. -/
def nameRule (R : Rules) (c : Context) : Reader Tree := do
  let start ← tokenStart
  let (w, _) ← nameChars
  let word := String.ofList w
  if ["this", "super", "null", "undefined"].contains word then finish .plain start []
  else if word = "true" then finish .trueLiteral start []
  else if word = "false" then finish .falseLiteral start []
  else
    guardThat (!reservedWords.contains word)
    let t ← finish .identifier start []
    if ← nextIs "=>" then arrowFrom R c start [t] else return t

/-- What starts with an angle bracket: an element, a function that takes types, or a part whose
type is asserted. -/
def angleRule (R : Rules) (c : Context) : Reader Tree := do
  let start ← tokenStart
  match ← dialect with
  | .plain => R.element
  | .typedElements => either R.element (genericArrow R c)
  | .typed =>
    either (genericArrow R c) (do
      let given ← typeArguments R
      let (t, _) ← R.operand c
      finish .plain start [given, t])

/-- Whether a part can be assigned to as it stands: a name, or a pattern of names. -/
def isTarget (first : Char) (t : Tree) : Bool :=
  t.kind == .identifier || first == '[' || first == '{' || first == '(' || t.kind == .member

/-- An expression that a class extends, from what reads an operand without suffixes. -/
def heritageTarget (R : Rules) (operand : Reader (Tree × Bool)) : Reader Tree := do
  let start ← tokenStart
  let t ← operand
  return (← suffixes R start ((← rest).length + 1) t).1

/-- An operand without suffixes, and whether it can be assigned to. -/
def primary (R : Rules) (c : Context) : Nat → Reader (Tree × Bool)
  | 0 => failure
  | n + 1 => do
    match ← peek with
    | none => failure
    | some first =>
      let t ←
        match first with
        | '(' => parenthesizedRule R c
        | '[' => arrayRule R
        | '{' => objectRule R
        | '`' => templateRule R
        | '\'' => stringLiteral
        | '"' => stringLiteral
        | '/' => regexLiteral
        | '<' => angleRule R c
        | '#' => privateName
        | '@' => classRule R (heritageTarget R (primary R {} n))
        | '.' => numberLiteral
        | _ =>
          if first.isDigit then numberLiteral
          else if ← nextWordIs "function" then functionRule R true
          else if ← nextWordIs "async" then asyncRule R c
          else if ← nextWordIs "class" then
            classRule R (heritageTarget R (primary R {} n))
          else if ← nextWordIs "new" then newRule R (return (← primary R c n).1)
          else if ← nextWordIs "import" then importRule R
          else nameRule R c
      return (t, isTarget first t)

/-- The words and marks before an operand. -/
def unaryMark : Reader Unit := do
  match ← peek with
  | some '!' => symbol "!"
  | some '~' => symbol "~"
  | some '+' => either (symbol "++") (symbol "+")
  | some '-' => either (symbol "--") (symbol "-")
  | _ =>
    let (w, _) ← nameChars
    guardThat (["typeof", "void", "delete", "await"].contains (String.ofList w))

/-- An operand with the operators before it and after it, and whether it can be assigned to. -/
def operandRule (R : Rules) (c : Context) : Reader (Tree × Bool) := do
  let start ← tokenStart
  let prefixed ← optionally (do
    unaryMark
    let (t, _) ← R.operand c
    finish .plain start [t])
  match prefixed with
  | some t => return (t, false)
  | none =>
    let bound := (← rest).length + 1
    let t ← suffixes R start bound (← primary R c bound)
    let updated ← optionally (do
      guardThat (← onSameLine)
      either (symbol "++") (symbol "--")
      finish .plain start [t.1])
    match updated with
    | some u => return (u, false)
    | none => return t

/-! ### Operators -/

/-- Operators made of marks that an equals sign would turn into another one. -/
def openOperators : List String :=
  [">>>", "<<", ">>", "**", "&&", "||", "??", "+", "-", "*", "/", "%", "&", "|", "^", "<", ">"]

/-- Operators made of marks that stay the same before an equals sign. -/
def closedOperators : List String := ["===", "!==", "==", "!=", "<=", ">="]

/-- The first of some marks that comes next. -/
def anySymbol (marks : List String) (bad : List Char) : Reader Unit := do
  let _ ← skipTrivia
  let s ← rest
  match marks.find? fun m => startsWith m.toList s
      && !((s.drop m.length).head?.map bad.contains).getD false with
  | some m => advance m.length
  | none => failure

/-- An operator between two operands. -/
def binaryMark (c : Context) : Reader Unit :=
  either (anySymbol closedOperators []) (either (anySymbol openOperators ['=']) (do
    let (w, _) ← nameChars
    let word := String.ofList w
    guardThat (word == "instanceof" || (word == "in" && !c.noIn))))

/-- An operator between an operand and a type. -/
def typeSuffix (R : Rules) : Reader Tree := do
  typesOnly
  guardThat (← onSameLine)
  let start ← tokenStart
  either (keyword "as") (keyword "satisfies")
  if ← takeKeyword "const" then finish .plain start [] else R.type

/-- What follows an operand in an expression: an operator with another operand, or a type. -/
def operatorPart (R : Rules) (c : Context) : Reader Tree :=
  either (typeSuffix R) (do
    binaryMark c
    return (← R.operand c).1)

/-- A condition's branches, after its question mark. -/
def branches (R : Rules) (c : Context) : Reader (List Tree) := do
  symbol "?"
  guardThat !(startsWith ['?'] (← rest))
  guardThat (!(startsWith ['.'] (← rest)) || (((← rest).drop 1).head?.map Char.isDigit).getD false)
  let typed := (← dialect).hasTypes
  let whenTrue : Reader Tree := do
    if typed then
      either (do
        let t ← R.assignment { noReturnType := true }
        guardThat (← nextIs ":")
        return t) (R.assignment {})
    else R.assignment {}
  let yes ← whenTrue
  symbol ":"
  let no ← R.assignment c
  return [yes, no]

/-- The marks of an assignment. -/
def assignmentMark : Reader Unit :=
  either (anySymbol ["**=", ">>>=", "<<=", ">>=", "&&=", "||=", "??=", "+=", "-=", "*=", "/=", "%=",
    "&=", "|=", "^="] []) (symbolNotBefore "=" ['=', '>'])

/-- A word that hands a value to the caller. -/
def yieldRule (R : Rules) (c : Context) : Reader Tree := do
  let start ← tokenStart
  keyword "yield"
  let _ ← takeSymbol "*"
  let value ← (return (← optionally (do
    guardThat (← onSameLine)
    R.assignment c)).toList)
  guardThat (!value.isEmpty || !(← nextIs "=>"))
  finish .plain start value

/-- An expression up to a comma. -/
def assignmentRule (R : Rules) (c : Context) : Reader Tree := do
  let start ← tokenStart
  match ← optionally (yieldRule R c) with
  | some t => return t
  | none =>
    let (first, target) ← R.operand c
    let others ← manyOf (operatorPart R c)
    let t ← if others.isEmpty then pure first else finish .plain start (first :: others)
    match ← optionally (branches R c) with
    | some parts => finish .plain start (t :: parts)
    | none =>
      if target && others.isEmpty then
        match ← optionally (do assignmentMark; R.assignment c) with
        | some value => finish .plain start [t, value]
        | none => return t
      else return t

/-- An expression, commas included. -/
def expressionRule (R : Rules) (c : Context) : Reader Tree := do
  let start ← tokenStart
  let first ← R.assignment c
  let others ← manyOf (do symbol ","; R.assignment c)
  match others with
  | [] => return first
  | _ => finish .plain start (first :: others)

end Script

end DesignRegistry
