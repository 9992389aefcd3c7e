/-
**Reading scripts: characters.**

The reader of scripts walks over the characters and keeps track of the place it has reached.  This
module holds the tokens: blanks and comments, names, numbers, texts in quotes, regular expressions
and punctuation.

Main definitions

* `Script.Input`, `Script.Reader` — what is left to read, and steps that may fail;
* `Script.Reader.skipTrivia` — blanks and comments, and whether a line feed was among them;
* `Script.Reader.name`, `Script.Reader.keyword`, `Script.Reader.symbol` — names and marks;
* `Script.Reader.stringLiteral`, `Script.Reader.numberLiteral`, `Script.Reader.regexLiteral`.
-/
import DesignRegistry.Script.Tree
import DesignRegistry.Number.Radix

namespace DesignRegistry

namespace Script

/-! ### State -/

/-- The dialects of scripts. -/
inductive Dialect where
  /-- Scripts with elements and without types. -/
  | plain
  /-- Scripts with types and without elements. -/
  | typed
  /-- Scripts with types and elements. -/
  | typedElements
deriving DecidableEq, Repr

namespace Dialect

/-- Whether types may be written. -/
def hasTypes : Dialect → Bool
  | .plain => false
  | _ => true

/-- Whether elements may be written. -/
def hasElements : Dialect → Bool
  | .typed => false
  | _ => true

end Dialect

/-- What is left to read. -/
structure Input where
  /-- The characters left. -/
  rest : List Char
  /-- The place reached. -/
  here : Point
  /-- The dialect of the script. -/
  dialect : Dialect

/-- A step of the reader. -/
abbrev Reader := StateT Input Option

/-! ### Characters -/

/-- Whether a character separates tokens. -/
def isScriptSpace (c : Char) : Bool :=
  c == ' ' || (9 ≤ c.toNat && c.toNat ≤ 13) || c.toNat == 0xA0 || c.toNat == 0x1680
    || (0x2000 ≤ c.toNat && c.toNat ≤ 0x200B) || c.toNat == 0x2028 || c.toNat == 0x2029
    || c.toNat == 0x202F || c.toNat == 0x205F || c.toNat == 0x2060 || c.toNat == 0x3000
    || c.toNat == 0xFEFF

/-- Whether a character ends a line. -/
def isLineEnd (c : Char) : Bool := c == '\n' || c.toNat == 0x2028 || c.toNat == 0x2029

/-- Whether a character can continue a name. -/
def isNamePart (c : Char) : Bool :=
  if c.toNat < 128 then c.isAlphanum || c == '_' || c == '$' || c.toNat == 127
  else !isScriptSpace c

/-- Whether a character can start a name. -/
def isNameStart (c : Char) : Bool := isNamePart c && !c.isDigit

/-! ### Scanning

Each scanner gives the length in characters of what it recognises at the front of a text. -/

/-- The length of a comment that runs to its closing mark, if it is closed. -/
def blockCommentLength : Nat → List Char → Option Nat
  | n, '*' :: '/' :: _ => some (n + 2)
  | n, _ :: rest => blockCommentLength (n + 1) rest
  | _, [] => none

/-- The length of a comment at the front. -/
def commentLength? (s : List Char) : Option Nat :=
  match s with
  | '/' :: '/' :: rest =>
    some (2 + (rest.takeWhile fun c => !isLineEnd c && c != '\r').length)
  | '/' :: '*' :: rest => blockCommentLength 2 rest
  | _ => none

/-- The length of an escape after its backslash. -/
def escapeLength? (s : List Char) : Option Nat :=
  match s with
  | 'x' :: a :: b :: _ =>
    if isHex a && isHex b then some 3 else none
  | 'x' :: _ => none
  | 'u' :: '{' :: rest =>
    let digits := rest.takeWhile isHex
    if !digits.isEmpty && (rest.drop digits.length).head? == some '}' then
      some (digits.length + 3)
    else none
  | 'u' :: rest => if 4 ≤ (rest.takeWhile isHex).length then some 5 else none
  | '\r' :: '\n' :: _ => some 2
  | _ :: _ => some 1
  | [] => none

/-- The length of a text in quotes after its opening quote; `skip` characters belong to an escape. -/
def stringLength (quote : Char) : Nat → Nat → List Char → Option Nat
  | _, _, [] => none
  | n, skip + 1, _ :: rest => stringLength quote (n + 1) skip rest
  | n, 0, c :: rest =>
    if c = quote then some (n + 1)
    else if c = '\\' then
      match escapeLength? rest with
      | some k => stringLength quote (n + 1) k rest
      | none => none
    else if c = '\n' ∨ c = '\r' then none
    else stringLength quote (n + 1) 0 rest

/-- The length of a regular expression's body with its closing mark. -/
def regexLength (inClass : Bool) : Nat → List Char → Option Nat
  | n, '\\' :: c :: rest => if c = '\n' then none else regexLength inClass (n + 2) rest
  | n, c :: rest =>
    if c = '\n' then none
    else if inClass then regexLength (c != ']') (n + 1) rest
    else if c = '/' then some (n + 1)
    else regexLength (c == '[') (n + 1) rest
  | _, [] => none

/-- The length of the rest of a number after a digit; an underscore stands between digits only. -/
def moreDigits (isDigit : Char → Bool) : List Char → Nat
  | '_' :: c :: rest => if isDigit c then 2 + moreDigits isDigit rest else 0
  | c :: rest => if isDigit c then 1 + moreDigits isDigit rest else 0
  | [] => 0

/-- The length of the digits of a number, with underscores between them. -/
def digitsLength (isDigit : Char → Bool) (s : List Char) : Nat :=
  if s.head?.any isDigit then moreDigits isDigit s else 0

/-- The length of an exponent. -/
def exponentLength (s : List Char) : Nat :=
  match s with
  | e :: rest =>
    if e = 'e' ∨ e = 'E' then
      let sign := match rest with
        | c :: _ => if c = '+' ∨ c = '-' then 1 else 0
        | [] => 0
      let digits := digitsLength Char.isDigit (rest.drop sign)
      if digits = 0 then 0 else 1 + sign + digits
    else 0
  | [] => 0

/-- The length of the mark of a big integer. -/
def bigMark (s : List Char) : Nat := if s.head? = some 'n' then 1 else 0

/-- The length of a number in a base other than ten. -/
def radixLength? (s : List Char) : Option Nat :=
  match s with
  | '0' :: b :: rest =>
    let test? : Option (Char → Bool) :=
      match b.toLower with
      | 'x' => some isHex
      | 'o' => some fun c => '0' ≤ c && c ≤ '7'
      | 'b' => some fun c => c == '0' || c == '1'
      | _ => none
    match test? with
    | none => none
    | some test =>
      let digits := digitsLength test rest
      if digits = 0 then none else some (2 + digits + bigMark (rest.drop digits))
  | _ => none

/-- Whether the digits before a point or an exponent are well written: at most one zero leads. -/
def isWholePart (digits : List Char) : Bool :=
  match digits with
  | '0' :: c :: _ => c != '0' && c != '_'
  | _ => true

/-- The length of a number. -/
def numberLength? (s : List Char) : Option Nat :=
  match radixLength? s with
  | some n => some n
  | none =>
    let whole := digitsLength Char.isDigit s
    let after := s.drop whole
    let plain := if whole = 0 then none else some (whole + bigMark after)
    if isWholePart (s.take whole) then
      match after with
      | '.' :: rest =>
        let fraction := digitsLength Char.isDigit rest
        if whole + fraction = 0 then none
        else
          let n := whole + 1 + fraction
          some (n + exponentLength (s.drop n))
      | _ =>
        let exponent := exponentLength after
        if whole ≠ 0 ∧ exponent ≠ 0 then some (whole + exponent) else plain
    else plain

/-- The length of a name; an escape `\u` counts as a part of it. -/
def nameLength : Nat → List Char → Nat
  | n, '\\' :: 'u' :: rest => nameLength (n + 2) rest
  | n, c :: rest =>
    if isNamePart c then nameLength (n + 1) rest
    else if (c = '{' ∨ c = '}') ∧ n = 0 then n
    else n
  | n, [] => n

/-- Words that cannot name a variable. -/
def reservedWords : List String :=
  ["break", "case", "catch", "class", "const", "continue", "debugger", "default", "delete", "do",
   "else", "export", "extends", "false", "finally", "for", "function", "if", "import", "in",
   "instanceof", "new", "null", "return", "super", "switch", "this", "throw", "true", "try",
   "typeof", "var", "void", "while", "with"]

/-! ### Steps -/

namespace Reader

/-- The characters left. -/
def rest : Reader (List Char) := do return (← get).rest

/-- The place reached. -/
def here : Reader Point := do return (← get).here

/-- The dialect of the script. -/
def dialect : Reader Dialect := do return (← get).dialect

/-- Goes on by a number of characters. -/
def advance (n : Nat) : Reader Unit :=
  modify fun i => { i with rest := i.rest.drop n, here := i.here.advanceBy (i.rest.take n) }

/-- Goes on if a condition holds. -/
def guardThat (condition : Bool) : Reader Unit := if condition then pure () else failure

/-- Tries a step; the reading goes on from here if it fails. -/
def optionally {α : Type} (p : Reader α) : Reader (Option α) := fun i =>
  match p i with
  | some (a, j) => some (some a, j)
  | none => some (none, i)

/-- Whether a step would succeed; nothing is read. -/
def lookingAt {α : Type} (p : Reader α) : Reader Bool := fun i => some ((p i).isSome, i)

/-- The first of two steps that succeeds. -/
def either {α : Type} (p q : Reader α) : Reader α := fun i =>
  match p i with
  | some r => some r
  | none => q i

/-- Runs a step until it fails, at most `n` times. -/
def many {α : Type} (p : Reader α) : Nat → Reader (List α)
  | 0 => pure []
  | n + 1 => do
    match ← optionally p with
    | none => return []
    | some a => return a :: (← many p n)

/-- Runs a step as often as it succeeds; the characters left bound the number of times. -/
def manyOf {α : Type} (p : Reader α) : Reader (List α) := do
  many p ((← rest).length + 1)

/-! ### Blanks and comments -/

/-- What stood between two tokens. -/
structure Trivia where
  /-- Whether a line ended. -/
  lineEnded : Bool
  /-- The comments. -/
  comments : List Tree

/-- Reads blanks and comments, at most `n` of them. -/
def triviaUpTo : Nat → Trivia → Reader Trivia
  | 0, found => pure found
  | n + 1, found => do
    let s ← rest
    match s with
    | [] => return found
    | c :: _ =>
      if isScriptSpace c then
        advance 1
        triviaUpTo n { found with lineEnded := found.lineEnded || isLineEnd c }
      else
        match commentLength? s with
        | none => return found
        | some k =>
          let start ← here
          advance k
          let comment := Tree.make .comment start (← here).offset []
          triviaUpTo n
            { lineEnded := found.lineEnded || (s.take k).any isLineEnd
              comments := found.comments ++ [comment] }

/-- Reads blanks and comments. -/
def trivia : Reader Trivia := do
  triviaUpTo ((← rest).length + 1) ⟨false, []⟩

/-- Skips blanks and comments, and tells whether a line ended among them. -/
def skipTrivia : Reader Bool := do return (← trivia).lineEnded

/-- The next character after blanks and comments. -/
def peek : Reader (Option Char) := do
  let _ ← skipTrivia
  return (← rest).head?

/-- Whether the next token is on the same line. -/
def onSameLine : Reader Bool := do
  let ended ← lookingAt (do guardThat (← skipTrivia))
  return !ended

/-- The place of the next token. -/
def tokenStart : Reader Point := do
  let _ ← skipTrivia
  here

/-! ### Marks and names -/

/-- Reads a mark at once, without blanks before it. -/
def exactly (mark : String) : Reader Unit := do
  let s ← rest
  guardThat (startsWith mark.toList s)
  advance mark.length

/-- Reads a mark. -/
def symbol (mark : String) : Reader Unit := do
  let _ ← skipTrivia
  exactly mark

/-- Reads a mark that none of the given characters may follow. -/
def symbolNotBefore (mark : String) (bad : List Char) : Reader Unit := do
  symbol mark
  match (← rest).head? with
  | some c => guardThat (!bad.contains c)
  | none => pure ()

/-- Whether a mark comes next. -/
def nextIs (mark : String) : Reader Bool := lookingAt (symbol mark)

/-- Reads a mark if it comes next, and tells whether it did. -/
def takeSymbol (mark : String) : Reader Bool := do
  return (← optionally (symbol mark)).isSome

/-- The text of the next name, any word included, with its place. -/
def nameChars : Reader (List Char × Point) := do
  let start ← tokenStart
  let s ← rest
  match s with
  | c :: _ =>
    guardThat (isNameStart c || startsWith ['\\', 'u'] s)
    let n := nameLength 0 s
    advance n
    return (s.take n, start)
  | [] => failure

/-- Reads a given word. -/
def keyword (word : String) : Reader Unit := do
  let (w, _) ← nameChars
  guardThat (w == word.toList)

/-- Whether a given word comes next. -/
def nextWordIs (word : String) : Reader Bool := lookingAt (keyword word)

/-- Reads a word if it comes next, and tells whether it did. -/
def takeKeyword (word : String) : Reader Bool := do
  return (← optionally (keyword word)).isSome

/-- A part from a place to where the reading has come. -/
def finish (kind : Kind) (start : Point) (children : List Tree) : Reader Tree := do
  return .make kind start (← here).offset children

/-- A name, any word included. -/
def anyName : Reader Tree := do
  let (_, start) ← nameChars
  finish .identifier start []

/-- A name that is no reserved word. -/
def name : Reader Tree := do
  let (w, start) ← nameChars
  guardThat (!reservedWords.contains (String.ofList w))
  finish .identifier start []

/-- A name of a private member. -/
def privateName : Reader Tree := do
  let start ← tokenStart
  exactly "#"
  let s ← rest
  let n := nameLength 0 s
  guardThat (n != 0)
  advance n
  finish .plain start []

/-! ### Literals -/

/-- A number. -/
def numberLiteral : Reader Tree := do
  let start ← tokenStart
  match numberLength? (← rest) with
  | some n =>
    advance n
    match (← rest).head? with
    | some c => guardThat (!isNamePart c)
    | none => pure ()
    finish .number start []
  | none => failure

/-- A text in quotes. -/
def stringLiteral : Reader Tree := do
  let start ← tokenStart
  match ← rest with
  | c :: s =>
    guardThat (c == '\'' || c == '"')
    match stringLength c 1 0 s with
    | some n =>
      advance n
      finish .string start []
    | none => failure
  | [] => failure

/-- A regular expression with its flags. -/
def regexLiteral : Reader Tree := do
  let start ← tokenStart
  exactly "/"
  let s ← rest
  guardThat (s.head? != some '/')
  match regexLength false 0 s with
  | some n =>
    advance n
    advance ((← rest).takeWhile fun c => 'a' ≤ c && c ≤ 'z').length
    finish .plain start []
  | none => failure

/-- A text in quotes of an attribute: any characters but the quote. -/
def attributeString : Reader Tree := do
  let start ← tokenStart
  match ← rest with
  | c :: s =>
    guardThat (c == '\'' || c == '"')
    let body := s.takeWhile (· != c)
    guardThat (body.length < s.length)
    advance (body.length + 2)
    finish .string start []
  | [] => failure

end Reader

end Script

end DesignRegistry
