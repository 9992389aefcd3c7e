/-
**The grammar of scripts: types.**

Types name, combine and query other types.  The keyword of the type of texts is a part of its own
kind, as texts in quotes are.

Main definitions

* `Script.typeArguments`, `Script.typeParameters` — types given to and taken by a name;
* `Script.objectType`, `Script.functionType` — types with members, and types of functions;
* `Script.type` — types.
-/
import DesignRegistry.Script.Grammar.Rules

namespace DesignRegistry

namespace Script

open Reader

/-! ### Arguments and parameters -/

/-- Types given to a name, in angle brackets. -/
def typeArguments (R : Rules) : Reader Tree := do
  let start ← tokenStart
  symbol "<"
  let ts ← bracketed ">" R.type
  guardThat (!ts.isEmpty)
  finish .plain start ts

/-- A type that a name takes, with its bound and its default. -/
def typeParameter (R : Rules) : Reader Tree := do
  let start ← tokenStart
  let _ ← manyOf (do
    let (w, _) ← nameChars
    guardThat (["const", "in", "out"].contains (String.ofList w))
    guardThat (← lookingAt nameChars)
    guardThat !(← nextWordIs "extends"))
  let n ← name
  let bound ← if ← takeKeyword "extends" then pure [← R.type] else pure []
  let value ← if ← takeSymbol "=" then pure [← R.type] else pure []
  finish .plain start (n :: bound ++ value)

/-- The types that a name takes, in angle brackets. -/
def typeParameters (R : Rules) : Reader Tree := do
  let start ← tokenStart
  symbol "<"
  let ts ← bracketed ">" (typeParameter R)
  guardThat (!ts.isEmpty)
  finish .plain start ts

/-! ### Signatures -/

/-- A type that a function returns: a type, or a statement about one of its parameters. -/
def returnType (R : Rules) : Reader Tree := do
  let start ← tokenStart
  either
    (do
      let asserted ← takeKeyword "asserts"
      let subject ← anyName
      if ← lookingAt (do guardThat (← onSameLine); keyword "is") then
        keyword "is"
        let t ← R.type
        finish .plain start [subject, t]
      else
        guardThat asserted
        guardThat !(← nextIs ".")
        finish .plain start [subject])
    R.type

/-- A colon and the type that a function returns. -/
def resultType (R : Rules) : Reader Tree := do
  let start ← tokenStart
  symbol ":"
  let t ← returnType R
  finish .plain start [t]

/-- The parameters of a signature, with the types it takes and returns. -/
def signature (R : Rules) : Reader (List Tree) := do
  let taken ← (return (← optionally (typeParameters R)).toList)
  let ps ← parameters R (pure [])
  let result ← (return (← optionally (resultType R)).toList)
  return taken ++ ps :: result

/-- Whether the parentheses that come next hold parameters of a function type. -/
def parametersFollow (R : Rules) : Reader Bool :=
  lookingAt do
    symbol "("
    either (symbol ")") (either (symbol "...") (do
      let simple ← optionally anyName
      match simple with
      | some _ => pure ()
      | none =>
        guardThat ((← nextIs "\x7b") || (← nextIs "["))
        let _ ← R.pattern
        pure ()
      either (symbol ":") (either (symbol ",") (either (symbol "?") (either (symbol "=") (do
        symbol ")"
        symbol "=>"))))))

/-- The type of a function, or of a constructor after its word. -/
def functionType (R : Rules) : Reader Tree := do
  let start ← tokenStart
  let taken ← (return (← optionally (typeParameters R)).toList)
  let ps ← parameters R (pure [])
  symbol "=>"
  let result ← returnType R
  finish .plain start (taken ++ [ps, result])

/-- The type of a constructor. -/
def constructorType (R : Rules) : Reader Tree := do
  let start ← tokenStart
  let _ ← takeKeyword "abstract"
  keyword "new"
  let f ← functionType R
  finish .plain start [f]

/-! ### Members -/

/-- The sign before a modifier of a mapped type, and the modifier. -/
def signedMark (mark : Reader Unit) : Reader Unit :=
  either mark (either (do symbol "+"; mark) (do symbol "-"; mark))

/-- A member whose name ranges over a type. -/
def indexMember (R : Rules) : Reader Tree := do
  let start ← tokenStart
  let _ ← optionally (signedMark (do keyword "readonly"; guardThat (← nextIs "[")))
  symbol "["
  let n ← name
  let ranges ←
    if ← takeSymbol ":" then pure [← R.type]
    else do
      keyword "in"
      let t ← R.type
      let renamed ← if ← takeKeyword "as" then pure [← R.type] else pure []
      pure (t :: renamed)
  symbol "]"
  let _ ← optionally (signedMark (symbol "?"))
  let value ← (return (← optionally (typeMark R)).toList)
  finish .plain start (n :: ranges ++ value)

/-- A member with a name: a property or a method. -/
def namedMember (R : Rules) : Reader Tree := do
  let start ← tokenStart
  let _ ← manyOf (modifier ["readonly", "get", "set", "static", "async", "public", "private",
    "protected", "override", "declare", "abstract"])
  let key ← memberName R
  let _ ← takeSymbol "?"
  if (← nextIs "(") || (← nextIs "<") then
    let parts ← signature R
    finish .plain start (key :: parts)
  else
    let value ← (return (← optionally (typeMark R)).toList)
    finish .plain start (key :: value)

/-- A member that is called or constructed. -/
def callMember (R : Rules) : Reader Tree := do
  let start ← tokenStart
  let _ ← optionally (do
    keyword "new"
    guardThat ((← nextIs "(") || (← nextIs "<")))
  guardThat ((← nextIs "(") || (← nextIs "<"))
  let parts ← signature R
  finish .plain start parts

/-- The end of a member: a comma, a semicolon, or a place where one is understood. -/
def endMember : Reader Unit := either (symbol ",") endStatement

/-- The members of a type, in braces. -/
def objectType (R : Rules) : Reader Tree := do
  let start ← tokenStart
  symbol "\x7b"
  let members ← manyOf (do
    guardThat !(← nextIs "\x7d")
    let m ← either (indexMember R) (either (callMember R) (namedMember R))
    endMember
    return m)
  symbol "\x7d"
  finish .plain start members

/-! ### Single types -/

/-- The words that name no type. -/
def wordsBesideTypes : List String :=
  ["extends", "in", "new", "function", "class", "if", "else", "return", "const", "var", "let",
    "import", "export", "default"]

/-- A name with dots and the types given to it; the keyword of the type of texts is a part of its
own. -/
def namedType (R : Rules) : Reader Tree := do
  let start ← tokenStart
  let (w, _) ← nameChars
  guardThat (!wordsBesideTypes.contains (String.ofList w))
  let dotted ← manyOf (do symbol "."; anyName)
  if w = "string".toList && dotted.isEmpty then
    let word ← finish .string start []
    finish .plain start [word]
  else
    let given ←
      if ← onSameLine then pure (← optionally (typeArguments R)).toList else pure []
    finish .plain start given

/-- A type taken from the value of an expression. -/
def queryType (R : Rules) : Reader Tree := do
  let start ← tokenStart
  keyword "typeof"
  let imported ← optionally (do
    keyword "import"
    symbol "("
    let t ← R.assignment {}
    symbol ")"
    return t)
  let first ←
    match imported with
    | some t => pure [t]
    | none => do
      let _ ← anyName
      pure []
  let _ ← manyOf (do symbol "."; either anyName privateName)
  let given ← (return (← optionally (typeArguments R)).toList)
  finish .plain start (first ++ given)

/-- A type from another script. -/
def importType (R : Rules) : Reader Tree := do
  let start ← tokenStart
  keyword "import"
  symbol "("
  let t ← R.assignment {}
  symbol ")"
  let _ ← manyOf (do symbol "."; anyName)
  let given ← (return (← optionally (typeArguments R)).toList)
  finish .plain start (t :: given)

/-- A part of a tuple: a type with an optional name. -/
def tuplePart (R : Rules) : Reader Tree := do
  let start ← tokenStart
  let _ ← takeSymbol "..."
  let _ ← optionally (do
    let _ ← anyName
    let _ ← takeSymbol "?"
    symbol ":")
  let t ← R.type
  let _ ← takeSymbol "?"
  finish .plain start [t]

/-- A type that is no combination. -/
def primaryType (R : Rules) : Reader Tree := do
  let start ← tokenStart
  match ← peek with
  | some '{' => objectType R
  | some '[' =>
    symbol "["
    let parts ← bracketed "]" (tuplePart R)
    finish .plain start parts
  | some '(' =>
    symbol "("
    let t ← R.type
    symbol ")"
    finish .plain start [t]
  | some '`' => templateOf .plain R.type
  | some '\'' => stringLiteral
  | some '"' => stringLiteral
  | some '-' =>
    symbol "-"
    let t ← numberLiteral
    finish .plain start [t]
  | some c =>
    if c.isDigit then numberLiteral
    else either (queryType R) (either (importType R) (namedType R))
  | none => failure

/-- The brackets after a type: an array of it, or a member of it. -/
def typeSuffixes (R : Rules) (start : Point) (t : Tree) : Reader Tree := do
  let suffixes ← manyOf (do
    guardThat (← onSameLine)
    symbol "["
    if ← takeSymbol "]" then return []
    let index ← R.type
    symbol "]"
    return [index])
  match suffixes with
  | [] => return t
  | _ => finish .plain start (t :: suffixes.flatten)

/-- A word in front of a type. -/
def typeOperator : Reader Unit := do
  let (w, _) ← nameChars
  guardThat (["keyof", "unique", "readonly"].contains (String.ofList w))
  match ← peek with
  | some c =>
    guardThat (isNameStart c || ['{', '[', '(', '\'', '"', '`'].contains c)
    guardThat !(← nextWordIs "extends")
  | none => failure

/-- A type with the words before it and the brackets after it. -/
def unaryType (R : Rules) : Reader Tree := do
  let start ← tokenStart
  let words ← manyOf typeOperator
  let inferred ← optionally (do
    keyword "infer"
    let n ← name
    let bound ← optionally (do
      keyword "extends"
      let t ← unaryBound
      guardThat !(← nextIs "?")
      return t)
    finish .plain start (n :: bound.toList))
  match inferred with
  | some t => return t
  | none =>
    let t ← typeSuffixes R start (← primaryType R)
    if words.isEmpty then return t else finish .plain start [t]
where
  /-- The bound of an inferred type. -/
  unaryBound : Reader Tree := do
    let start ← tokenStart
    typeSuffixes R start (← primaryType R)

/-- Types joined by one mark, which may also stand in front. -/
def joinedTypes (mark : String) (single : Reader Tree) : Reader Tree := do
  let start ← tokenStart
  let _ ← takeSymbol mark
  let first ← single
  let others ← manyOf (do
    symbolNotBefore mark (mark.toList ++ ['='])
    single)
  match others with
  | [] => return first
  | _ => finish .plain start (first :: others)

/-- A type, possibly one that depends on a condition. -/
def type (R : Rules) : Reader Tree := do
  let start ← tokenStart
  let asFunction := (← nextIs "<") || (← parametersFollow R)
  if asFunction then functionType R
  else
    match ← optionally (constructorType R) with
    | some t => return t
    | none =>
      let member : Reader Tree := do
        if ← parametersFollow R then functionType R
        else either (unaryType R) (constructorType R)
      let union : Reader Tree := joinedTypes "|" (joinedTypes "&" member)
      let t ← union
      let conditional ← optionally (do
        keyword "extends"
        let bound ← union
        symbol "?"
        let yes ← R.type
        symbol ":"
        let no ← R.type
        finish .plain start [t, bound, yes, no])
      return conditional.getD t

end Script

end DesignRegistry
